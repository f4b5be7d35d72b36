import FixProtocol.Proofs.Session.Counters

/-!
# Sessions one after the other

A session may be given up between any two operations, and another one goes on with its store. The
store and the session of the moment always go on with the same numbers, and what all of them wrote
is numbered as if one session had written it.

- `Succession`: sessions one after the other over one store, and what their operations answered.
- `succession_level`: the store never drifts from the session, and the messages that were written
  are kept under consecutive numbers.
-/

namespace FixProtocol

namespace Session

variable {store : MemoryStore} {os : List Outcome} {s : Session MemoryStore}

/-- Sessions one after the other, from a store on: what their operations answered, and the session
of the moment. -/
inductive Succession (store : MemoryStore) : List Outcome → Session MemoryStore → Prop
  | first {config : SessionConfig} {start : Nat} {s : Session MemoryStore}
      (hc : Speakable config) (hopen : open? config store start = .ok s) : Succession store [] s
  | operate {os : List Outcome} {s : Session MemoryStore} (h : Succession store os s)
      (op : Operation) : Succession store (os ++ [(s.step op).1]) (s.step op).2
  | next {os : List Outcome} {s s' : Session MemoryStore} {config : SessionConfig} {start : Nat}
      (h : Succession store os s) (hc : Speakable config)
      (hopen : open? config s.store start = .ok s') : Succession store os s'

/-- A session of a succession may do several operations. -/
theorem Succession.run (h : Succession store os s) (ops : List Operation) :
    Succession store (os ++ (s.run ops).1) (s.run ops).2 := by
  induction ops generalizing os s with
  | nil =>
    rw [show os ++ (s.run []).1 = os from List.append_nil os]
    exact h
  | cons op ops ih =>
    have htail := ih (h.operate op)
    rw [List.append_assoc] at htail
    exact htail

/-- A new session is level with a store whose numbers are above all that is kept. -/
theorem level_of_open {config : SessionConfig} {start : Nat}
    (h : open? config store start = .ok s) {d : Direction} (hfirst : .first ≤ store.nextSeq d)
    (hlast : (store.journal d).last < store.nextSeq d) : Level d s := by
  obtain ⟨_, rfl⟩ := open?_eq_ok_iff.mp h
  have hnext : (fresh config store start).sequences.next d = store.nextSeq d := by
    cases d with
    | outbound => exact SeqNum.max_first_of_le hfirst
    | inbound => exact SeqNum.max_first_of_le hfirst
  exact ⟨hnext.symm, hnext ▸ hlast⟩

/-- The expected number and the next number are never zero. -/
theorem Level.first_le {d : Direction} (h : Level d s) : .first ≤ s.store.nextSeq d := by
  have hlast : (s.store.journal d).last < s.store.nextSeq d := h.next ▸ h.last
  have hpos : s.store.nextSeq d ≠ 0 := fun hzero => UInt64.not_lt_zero (hzero ▸ hlast)
  grind

/-- Every session of a succession has settings that are valid, and what waits is genuine. -/
theorem Succession.sound (h : Succession store os s) : Speakable s.config ∧ Sound .any s := by
  induction h with
  | first hc hopen =>
    obtain ⟨_, rfl⟩ := open?_eq_ok_iff.mp hopen
    exact ⟨hc, sound_of_open hopen⟩
  | operate _ op ih =>
    obtain ⟨hc, hsound⟩ := ih
    have hstep := stepped_any hsound op
    obtain ⟨_, _, hhands⟩ := hstep.hands
    exact ⟨hhands.config ▸ hc, hsound.stepped hstep⟩
  | next _ hc hopen =>
    obtain ⟨_, rfl⟩ := open?_eq_ok_iff.mp hopen
    exact ⟨hc, sound_of_open hopen⟩

/-- The store stays level with the session of the moment, and holds what the operations wrote. The
induction is on the succession: an operation writes what it accounts for, and a new session writes
nothing. -/
theorem Succession.wrote (hfirst : ∀ d, .first ≤ store.nextSeq d)
    (hlast : ∀ d, (store.journal d).last < store.nextSeq d) (h : Succession store os s)
    (htop : s.store.nextSeq .outbound < .top) :
    (∀ d, Level d s) ∧ ∃ s₀ writes, s₀.store = store ∧ Level .outbound s₀ ∧
      List.Forall₂ Accounts os writes ∧ Wrote s₀ s writes.flatten := by
  induction h with
  | @first config start s hc hopen =>
    have hlevel (d : Direction) : Level d s := level_of_open hopen (hfirst d) (hlast d)
    obtain ⟨_, rfl⟩ := open?_eq_ok_iff.mp hopen
    exact ⟨hlevel, _, [], rfl, hlevel .outbound, .nil, .nothing rfl rfl⟩
  | @operate os s h op ih =>
    obtain ⟨hc, hsound⟩ := h.sound
    have hstep := stepped_any hsound op
    obtain ⟨hlevel, s₀, writes, hstore, hlevel₀, haccounts, hwrote⟩ :=
      ih (UInt64.lt_of_le_of_lt hstep.nextSeq_le htop)
    obtain ⟨written, hwritten, haccount, _⟩ := hstep.wrote (hlevel .outbound).last htop
    have hin := levels_step hsound (hlevel .inbound) hc (hlevel .outbound).last op
    refine ⟨fun d => ?_, s₀, writes ++ [written], hstore, hlevel₀, ?_, ?_⟩
    · cases d with
      | outbound => exact (hlevel .outbound).stepped hstep htop
      | inbound => exact hin
    · exact List.rel_append haccounts (.cons haccount .nil)
    · rw [List.flatten_append, List.flatten_singleton]
      exact hwrote.trans hwritten
  | @next os s s' config start h hc hopen ih =>
    have hstore' : s'.store = s.store := by
      obtain ⟨_, rfl⟩ := open?_eq_ok_iff.mp hopen
      rfl
    obtain ⟨hlevel, s₀, writes, hstore, hlevel₀, haccounts, hwrote⟩ := ih (hstore' ▸ htop)
    have hlevel' (d : Direction) : Level d s' :=
      level_of_open hopen (hlevel d).first_le ((hlevel d).next ▸ (hlevel d).last)
    have hnext : s'.sequences.nextOutgoing = s.sequences.nextOutgoing := by
      have hlevelOut := (hlevel .outbound).next
      rw [← hstore'] at hlevelOut
      exact (hlevel' .outbound).next.symm.trans hlevelOut
    have hafter : Wrote s s' [] := .nothing (congrArg MemoryStore.outbound hstore') hnext
    have hwrote := hwrote.trans hafter
    rw [List.append_nil] at hwrote
    exact ⟨hlevel', s₀, writes, hstore, hlevel₀, haccounts, hwrote⟩

/-- From a store whose numbers are above all that it keeps, sessions run one after the other. As long
as the outbound counter has not come to the end, after every operation, also one that failed: the
store and the session go on with the same numbers, everything kept is below them, and what was added
to the outbound journal is what the operations wrote, each frame under the number that it carries,
without a hole from the first counter on. An operation that answered put out just the new frames
that it wrote. -/
theorem succession_level (hfirst : ∀ d, .first ≤ store.nextSeq d)
    (hbelow : ∀ d, ∀ e ∈ (store.journal d).entries, e.1 < store.nextSeq d)
    (h : Succession store os s) (htop : s.store.nextSeq .outbound < .top) :
    s.store.nextSeq .outbound = s.sequences.nextOutgoing ∧
      s.store.nextSeq .inbound = s.sequences.expectedIncoming ∧
      (∀ d, ∀ e ∈ (s.store.journal d).entries, e.1 < s.store.nextSeq d) ∧
      ∃ writes : List (List (SeqNum × Bytes)), List.Forall₂ Accounts os writes ∧
        s.store.outbound.entries = store.outbound.entries ++ writes.flatten ∧
        (∀ e ∈ writes.flatten, Numbered e.1 e.2) ∧
        store.nextSeq .outbound ≤ s.store.nextSeq .outbound ∧
        writes.flatten.map (·.1.toNat) = List.range' (store.nextSeq .outbound).toNat
          ((s.store.nextSeq .outbound).toNat - (store.nextSeq .outbound).toNat) := by
  have hlast (d : Direction) := (Journal.last_lt_iff (hfirst d)).mpr (hbelow d)
  obtain ⟨hlevel, s₀, writes, rfl, hlevel₀, haccounts, hwrote⟩ := h.wrote hfirst hlast htop
  refine ⟨(hlevel .outbound).next, (hlevel .inbound).next, fun d => ?_, writes, haccounts,
    hwrote.entries, hwrote.numbered, ?_, ?_⟩
  · refine (Journal.last_lt_iff (hlevel d).first_le).mp ?_
    rw [(hlevel d).next]
    exact (hlevel d).last
  · rw [hlevel₀.next, (hlevel .outbound).next]
    exact hwrote.le
  · rw [hlevel₀.next, (hlevel .outbound).next]
    exact hwrote.numbers

end Session

namespace Sample

open Session

/-- A test request and a bad resend request wait behind a missing order. When the order arrives, the
test request is answered, and then the call fails. -/
def failing : List Operation :=
  [.receive (logon initiator) moment,
    .receive (frame initiator .testRequest 3 [.ofText .testReqId "T"]) moment,
    .receive (frame initiator .resendRequest 4 []) moment,
    .receive (frame initiator .newOrderSingle 2 []) moment]

/-- The counterparty logs on once more. -/
def resuming : List Operation :=
  [.receive (frame initiator .logon 5 [.ofNat .encryptMethod 0, .ofNat .heartBtInt 30]) moment]

/-- An acceptor fails. -/
def failed : List Outcome × Session MemoryStore :=
  (Session.fresh acceptor .empty 0 : Session MemoryStore).run failing

/-- Another one goes on with its store. -/
def resumed : List Outcome × Session MemoryStore :=
  (Session.fresh acceptor failed.2.store 0 : Session MemoryStore).run resuming

theorem succession_resumed : Succession .empty (failed.1 ++ resumed.1) resumed.2 := by
  have hfailed : Succession .empty failed.1 failed.2 :=
    (Succession.first speakable_acceptor open_acceptor).run failing
  have hopen : open? acceptor failed.2.store 0 = .ok (fresh acceptor failed.2.store 0) :=
    open?_eq_ok_iff.mpr ⟨validate_acceptor, rfl⟩
  exact (hfailed.next speakable_acceptor hopen).run resuming

end Sample

namespace Session

/-- The call that failed wrote an answer that was not put out. It is kept and counted, and the next
session goes on after it. -/
theorem succession_level_resumed :
    Sample.failed.1.map Outcome.succeeded = [true, true, true, false] ∧
      Sample.resumed.2.store.nextSeq .outbound = 5 ∧
      Sample.resumed.2.sequences.expectedIncoming = 6 ∧
      ∃ writes, List.Forall₂ Accounts (Sample.failed.1 ++ Sample.resumed.1) writes ∧
        writes.flatten.map (·.1.toNat) = [1, 2, 3, 4] := by
  have hnext : Sample.resumed.2.store.nextSeq .outbound = 5 := by decide +kernel
  have hbelow (d : Direction) :
      ∀ e ∈ (MemoryStore.empty.journal d).entries, e.1 < MemoryStore.empty.nextSeq d := by
    cases d
    all_goals exact nofun
  obtain ⟨_, _, _, writes, haccounts, _, _, _, hnumbers⟩ := succession_level
    (fun d => by cases d <;> decide) hbelow Sample.succession_resumed (hnext ▸ by decide)
  refine ⟨by decide +kernel, hnext, by decide +kernel, writes, haccounts, ?_⟩
  rw [hnumbers, hnext]
  decide

end Session

end FixProtocol
