import FixProtocol.Proofs.Session.Exchange
import FixProtocol.Session.Link

/-!
# Finding each other again

Two sessions that go on from their stores may have missed messages of each other. The one that did
asks for them when it sees the other's logon, and is sent them again.

- `Link.Settles`: in whatever order the queued frames are delivered, the wire falls silent, and then
  something holds.
- `Link.InSync`: both sides are logged on, wait for nothing, and expect what the other sends next.
- `Link.settles_inSync_iff`: two sessions are in sync in the end exactly when at most one of them
  has missed something. When both have, each parks the other's request behind its own gap, and
  neither is answered.
-/

namespace FixProtocol

open Session

namespace Session

/-- Is a session logged on, and waits for nothing? -/
structure IsSettled (s : Session MemoryStore) : Prop where
  state_eq : s.state = .loggedOn
  not_requesting : s.recovery.isRequesting = false

variable {c : SessionConfig} {s : Session MemoryStore} {next expected n : SeqNum}

theorem Stands.isSettled (h : Stands c .loggedOn next expected [] none s) : s.IsSettled where
  state_eq := h.state_eq
  not_requesting := by
    rw [GapRecovery.isRequesting, Option.map_eq_none_iff.mp h.asked_eq]
    rfl

/-- A side with a gap of its own does not answer a request from behind it, and waits on, or ends. -/
theorem receive_behind {parked : List (SeqNum × Parked)} {asked first last : SeqNum} {p : Parked}
    (h : Stands c .loggedOn next expected parked (some asked) s) (hp : IsRequest c n first last p)
    (hlt : expected < n) (now : Moment) :
    (Outcome.reacted (s.receive p.frame now).1).frames = [] ∧
      ¬ (s.receive p.frame now).2.IsSettled := by
  have hends := ends_process_behind h hp hlt now
  unfold Ends at hends
  unfold receive Call.settle
  cases heq : process p.frame now s with
  | ok r t =>
    rw [heq] at hends
    refine ⟨hends.1, fun hsettled => ?_⟩
    exact Bool.false_ne_true (hsettled.not_requesting.symm.trans hends.2)
  | error e t => exact ⟨rfl, fun hsettled => nomatch hsettled.state_eq⟩

end Session

namespace Link

variable {P Q : Link MemoryStore → Prop} {l : Link MemoryStore}

/-- Both sides are logged on, wait for nothing, and expect what the other sends next. -/
structure InSync (l : Link MemoryStore) : Prop where
  a : l.a.IsSettled
  b : l.b.IsSettled
  expected_a : l.a.sequences.expectedIncoming = l.b.sequences.nextOutgoing
  expected_b : l.b.sequences.expectedIncoming = l.a.sequences.nextOutgoing

/-- In whatever order the queued frames are delivered, the first of each queue first, and at
whatever times, nothing is queued in the end, and then `P` holds. -/
inductive Settles (P : Link MemoryStore → Prop) : Link MemoryStore → Prop
  | quiet {l : Link MemoryStore} (h : P l) (ha : l.toA = []) (hb : l.toB = []) : Settles P l
  | deliver {l : Link MemoryStore} (hbusy : l.toA ≠ [] ∨ l.toB ≠ [])
      (h : ∀ side now, l.queue side ≠ [] → Settles P (l.deliver side 1 now).2) : Settles P l

theorem Settles.mono (h : Settles P l) (hPQ : ∀ l, P l → Q l) : Settles Q l := by
  induction h with
  | quiet h ha hb => exact .quiet (hPQ _ h) ha hb
  | deliver hbusy _ ih => exact .deliver hbusy ih

/-! ## Deliveries -/

variable {a b : Session MemoryStore} {toA toB : List Bytes} {frame : Bytes}

theorem deliver_a (now : Moment) :
    ((⟨a, b, frame :: toA, toB⟩ : Link MemoryStore).deliver .a 1 now).2 =
      ⟨(a.receive frame now).2, b, toA,
        toB ++ (Outcome.reacted (a.receive frame now).1).frames⟩ := by
  show (⟨_, _, _, toB ++ ((Outcome.reacted (a.receive frame now).1).frames ++ [])⟩ :
    Link MemoryStore) = _
  rw [List.append_nil]
  rfl

theorem deliver_b (now : Moment) :
    ((⟨a, b, toA, frame :: toB⟩ : Link MemoryStore).deliver .b 1 now).2 =
      ⟨a, (b.receive frame now).2, toA ++ (Outcome.reacted (b.receive frame now).1).frames,
        toB⟩ := by
  show (⟨_, _, toA ++ ((Outcome.reacted (b.receive frame now).1).frames ++ []), _⟩ :
    Link MemoryStore) = _
  rw [List.append_nil]
  rfl

theorem act_a (now : Moment) :
    ((⟨a, b, toA, toB⟩ : Link MemoryStore).act .a (.logon now)).2 =
      ⟨((logon now).run a).2, b, toA, toB ++ (Outcome.sent ((logon now).run a).1).frames⟩ := rfl

/-- The link as the other side sees it. -/
def swap (l : Link MemoryStore) : Link MemoryStore :=
  ⟨l.b, l.a, l.toB, l.toA⟩

theorem deliver_swap (l : Link MemoryStore) (side : Side) (now : Moment) :
    (l.swap.deliver side 1 now).2 = (l.deliver side.other 1 now).2.swap := by
  cases side <;> rfl

theorem queue_swap (l : Link MemoryStore) (side : Side) :
    l.swap.queue side = l.queue side.other := by
  cases side <;> rfl

theorem Settles.swap (h : Settles P l) : Settles (fun l => P l.swap) l.swap := by
  induction h with
  | quiet h ha hb => exact .quiet h hb ha
  | deliver hbusy _ ih =>
    refine .deliver hbusy.symm fun side now hqueue => ?_
    rw [deliver_swap]
    exact ih side.other now (queue_swap _ side ▸ hqueue)

theorem InSync.swap (h : InSync l) : InSync l.swap :=
  ⟨h.b, h.a, h.expected_b, h.expected_a⟩

/-- When frames wait for one side only, the first of them is what is delivered next. -/
theorem settles_of_receive_a {R : Reaction → Session MemoryStore → Prop}
    (hends : ∀ now, Ends (process frame now) a R Never)
    (hnext : ∀ r t, R r t → Settles P ⟨t, b, toA, r.outbound⟩) :
    Settles P ⟨a, b, frame :: toA, []⟩ := by
  refine .deliver (.inl (List.cons_ne_nil _ _)) fun side now hqueue => ?_
  cases side with
  | a =>
    obtain ⟨r, t, hreceive, hR⟩ := receive_of_ends (hends now)
    rw [deliver_a, hreceive]
    exact hnext r t hR
  | b => exact absurd rfl hqueue

theorem settles_of_receive_b {R : Reaction → Session MemoryStore → Prop}
    (hends : ∀ now, Ends (process frame now) b R Never)
    (hnext : ∀ r t, R r t → Settles P ⟨a, t, r.outbound, toB⟩) :
    Settles P ⟨a, b, [], frame :: toB⟩ :=
  (settles_of_receive_a (P := fun l => P l.swap) hends fun r t hR => (hnext r t hR).swap).swap

/-! ## One side has missed something -/

variable {cA cB : SessionConfig} {nA nB eA eB N n : SeqNum} {q : Parked}

theorem settles_quiet (ha : Stands cA .loggedOn nA nB [] none a)
    (hb : Stands cB .loggedOn nB nA [] none b) : Settles InSync ⟨a, b, [], []⟩ :=
  .quiet ⟨ha.isSettled, hb.isSettled, ha.expected_eq.trans hb.next_eq.symm,
    hb.expected_eq.trans ha.next_eq.symm⟩ rfl rfl

/-- The frames that fill the gap before a logon bring the side that waits for them into sync. The
induction is on the frames. -/
theorem settles_filling {frames : List Bytes} (hb : Stands cB .loggedOn (N + 1) nA [] none b)
    (hq : Genuine .any cA N q) (htype : q.message.msgType = .logon) (htiles : Tiles cA frames n N)
    (ha : Filling cA nA N q n a) : Settles InSync ⟨a, b, frames, []⟩ := by
  induction frames generalizing n a with
  | nil =>
    -- No frame is left, so nothing was missing any more before it.
    cases htiles
    rcases ha with ⟨hlt, _⟩ | ⟨_, ha⟩
    · exact absurd hlt (UInt64.lt_irrefl _)
    · exact settles_quiet ha hb
  | cons frame frames ih =>
    rcases ha with ⟨_, ha⟩ | ⟨rfl, _⟩
    · refine settles_of_receive_a (ends_process_tile ha hq htype htiles) fun r t hnext => ?_
      obtain ⟨hquiet, n', htiles, ht⟩ := hnext
      rw [hquiet]
      exact ih htiles ht
    · exact absurd htiles.lt (UInt64.lt_irrefl _)

/-- A side that waits for what it asked for is sent it by one that waits for nothing. -/
theorem settles_request {request : Bytes} {m : Message} (hcB : Speakable cB)
    (hd : Mirrored cB cA) (ha : Stands cA .loggedOn (n + 1) eA [(N, q)] (some (N - 1)) a)
    (hq : Genuine .any cA N q) (htype : q.message.msgType = .logon) (hfirst : .first ≤ eA)
    (hlt : eA < N) (hb : Stands cB .loggedOn (N + 1) n [] none b)
    (hm : IsRequest cB n eA (N - 1) ⟨m, request⟩) : Settles InSync ⟨a, b, [], [request]⟩ := by
  have hlast : N - 1 < N + 1 := UInt64.lt_trans (SeqNum.sub_one_lt_of_isValid hq.valid)
    (SeqNum.lt_succ_of_isValid hq.valid)
  have hends (now : Moment) := ends_process_request hcB hd hb hm hfirst (SeqNum.le_sub_one hlt)
    hlast now
  refine settles_of_receive_b hends fun r t ht => ?_
  obtain ⟨htiles, ht⟩ := ht
  rw [SeqNum.sub_one_add_one] at htiles
  exact settles_filling ht hq htype htiles (.inl ⟨hlt, ha⟩)

theorem settles_request_a {request : Bytes} {m : Message} (hcA : Speakable cA)
    (hd : Mirrored cA cB) (hb : Stands cB .loggedOn (n + 1) eB [(N, q)] (some (N - 1)) b)
    (hq : Genuine .any cB N q) (htype : q.message.msgType = .logon) (hfirst : .first ≤ eB)
    (hlt : eB < N) (ha : Stands cA .loggedOn (N + 1) n [] none a)
    (hm : IsRequest cA n eB (N - 1) ⟨m, request⟩) : Settles InSync ⟨a, b, [request], []⟩ :=
  ((settles_request hcA hd hb hq htype hfirst hlt ha hm).swap).mono fun _ h => h.swap

/-! ## Both sides have missed something -/

/-- When both sides have asked from behind a gap of the other, neither request is answered. -/
theorem settles_both_behind {pA pB : List (SeqNum × Parked)} {lA lB kA kB fA fB gA gB : SeqNum}
    {requestA requestB : Bytes} {mA mB : Message}
    (ha : Stands cA .loggedOn nA eA pA (some lA) a) (hb : Stands cB .loggedOn nB eB pB (some lB) b)
    (hmA : IsRequest cB kA fA gA ⟨mA, requestA⟩) (hmB : IsRequest cA kB fB gB ⟨mB, requestB⟩)
    (hltA : eA < kB) (hltB : eB < kA) :
    Settles (fun l => ¬ l.InSync) ⟨a, b, [requestB], [requestA]⟩ := by
  have hparkA (now : Moment) := receive_behind ha hmB hltA now
  have hparkB (now : Moment) := receive_behind hb hmA hltB now
  -- Whichever request arrives first, the other one is all that is left.
  refine .deliver (.inl (List.cons_ne_nil _ _)) fun side now _ => ?_
  cases side with
  | a =>
    rw [deliver_a, (hparkA now).1]
    refine .deliver (.inr (List.cons_ne_nil _ _)) fun side now' hqueue => ?_
    cases side with
    | a => exact absurd rfl hqueue
    | b =>
      rw [show ([requestA] ++ [] : List Bytes) = [requestA] from rfl, deliver_b, (hparkB now').1]
      exact .quiet (fun hsync => (hparkA now).2 hsync.a) rfl rfl
  | b =>
    rw [deliver_b, (hparkB now).1]
    refine .deliver (.inl (List.cons_ne_nil _ _)) fun side now' hqueue => ?_
    cases side with
    | a =>
      rw [show ([requestB] ++ [] : List Bytes) = [requestB] from rfl, deliver_a, (hparkA now').1]
      exact .quiet (fun hsync => (hparkB now).2 hsync.b) rfl rfl
    | b => exact absurd rfl hqueue

/-! ## From the first logon on -/

section
variable {frame : Bytes} {m : Message} (hcA : Speakable cA) (hcB : Speakable cB)
  (hd : Mirrored cA cB) (hrole : cA.role = .initiator)
include hcA hd hrole

/-- The initiator reads the answer to its logon, and goes on with the number that it has. -/
theorem ends_process_answer (ha : Stands cA .logonSent nA nB [] none a)
    (hnA : nA.isValid = true) (hm : IsLogon cA nB cA.heartbeatSeconds ⟨m, frame⟩) (now : Moment) :
    Ends (process frame now) a
      (fun r t => r.outbound = [] ∧ Stands cA .loggedOn nA (nB + 1) [] none t) Never := by
  obtain ⟨_, _, ⟨_, hseconds⟩, _⟩ := SessionConfig.validate_eq_ok_iff.mp hcA.valid
  refine (ends_process_logon hcA hd (.initiator hrole hseconds) ha hnA hm now).imp ?_
  rintro r t ⟨next', hanswers, ht⟩
  obtain ⟨hquiet, rfl⟩ := hanswers.of_initiator hrole
  exact ⟨hquiet, ht⟩

/-- The initiator reads the answer to its logon from behind a gap, and asks for what is missing. -/
theorem ends_process_answer_gap (ha : Stands cA .logonSent nA eA [] none a)
    (hnA : nA.isValid = true) (hm : IsLogon cA nB cA.heartbeatSeconds ⟨m, frame⟩) (hlt : eA < nB)
    (now : Moment) :
    Ends (process frame now) a
      (fun r t => ∃ request m', r.outbound = [request] ∧
        IsRequest cB nA eA (nB - 1) ⟨m', request⟩ ∧
        Stands cA .loggedOn (nA + 1) eA [(nB, ⟨m, frame⟩)] (some (nB - 1)) t) Never := by
  obtain ⟨_, _, ⟨_, hseconds⟩, _⟩ := SessionConfig.validate_eq_ok_iff.mp hcA.valid
  have hinitiator : cA.role = .acceptor → (nA + 1).isValid = true :=
    fun hacceptor => absurd (hrole.symm.trans hacceptor) (by decide)
  refine (ends_process_logon_gap hcA hd (.initiator hrole hseconds) ha hnA hinitiator hm hlt
    now).imp ?_
  rintro r t ⟨next', frames, request, m', houtbound, hanswers, hm', ht⟩
  obtain ⟨rfl, rfl⟩ := hanswers.of_initiator hrole
  exact ⟨request, m', houtbound, hm', ht⟩

/-- The acceptor has missed something, and has asked for it. -/
theorem settles_answer_request {request : Bytes} {m' : Message}
    (ha : Stands cA .logonSent (N + 1) eA [] none a) (hnA : (N + 1).isValid = true)
    (hb : Stands cB .loggedOn (nB + 1 + 1) eB [(N, q)] (some (N - 1)) b)
    (hq : Genuine .any cB N q) (htype : q.message.msgType = .logon) (hfirst : .first ≤ eB)
    (hlt : eB < N) (hm : IsLogon cA nB cA.heartbeatSeconds ⟨m, frame⟩)
    (hm' : IsRequest cA (nB + 1) eB (N - 1) ⟨m', request⟩) (hle : eA ≤ nB) :
    Settles (fun l => l.InSync ↔ eA = nB) ⟨a, b, [frame, request], []⟩ := by
  rcases UInt64.lt_or_eq_of_le hle with hltA | rfl
  -- The request of the acceptor arrives from behind the initiator's own gap, and the other way
  -- round.
  · have hends (now : Moment) :=
      ends_process_answer_gap hcA hd hrole ha hnA hm hltA now
    refine settles_of_receive_a hends fun r t ht => ?_
    obtain ⟨requestA, mA, hrequest, hmA, ht⟩ := ht
    rw [hrequest]
    have hbehindA := UInt64.lt_trans hltA (SeqNum.lt_succ_of_isValid hm.genuine.valid)
    have hbehindB := UInt64.lt_trans hlt (SeqNum.lt_succ_of_isValid hq.valid)
    refine (settles_both_behind ht hb hmA hm' hbehindA hbehindB).mono fun l hl => ?_
    exact iff_of_false hl (UInt64.ne_of_lt hltA)
  · refine settles_of_receive_a (ends_process_answer hcA hd hrole ha hnA hm) fun r t ht => ?_
    rw [ht.1]
    refine (settles_request_a hcA hd hb hq htype hfirst hlt ht.2 hm').mono fun l hl => ?_
    exact iff_of_true hl rfl

include hcB in
/-- The acceptor has missed nothing. -/
theorem settles_answer (ha : Stands cA .logonSent nA eA [] none a) (hnA : nA.isValid = true)
    (hb : Stands cB .loggedOn (nB + 1) nA [] none b)
    (hm : IsLogon cA nB cA.heartbeatSeconds ⟨m, frame⟩) (hfirst : .first ≤ eA) (hle : eA ≤ nB) :
    Settles InSync ⟨a, b, [frame], []⟩ := by
  rcases UInt64.lt_or_eq_of_le hle with hlt | rfl
  -- The acceptor waits for nothing, so it serves what the initiator asks for.
  · refine settles_of_receive_a
      (ends_process_answer_gap hcA hd hrole ha hnA hm hlt) fun r t ht => ?_
    obtain ⟨request, m', hrequest, hm', ht⟩ := ht
    rw [hrequest]
    exact settles_request hcB hd.symm ht hm.genuine hm.type hfirst hlt hb hm'
  · refine settles_of_receive_a (ends_process_answer hcA hd hrole ha hnA hm) fun r t ht => ?_
    rw [ht.1]
    exact settles_quiet ht.2 hb

end

/-- Let two sessions with mirrored settings go on from their stores, the initiator log on, and
whatever is queued be delivered in any order. Then the wire falls silent. If neither expects more
than the other has sent, they are in sync exactly when one of them has missed nothing. -/
theorem settles_inSync_iff {storeA storeB : MemoryStore} {startA startB : Nat}
    (ha : open? cA storeA startA = .ok a) (hb : open? cB storeB startB = .ok b)
    (hroleA : cA.role = .initiator) (hroleB : cB.role = .acceptor) (hcA : Speakable cA)
    (hcB : Speakable cB) (hd : Mirrored cA cB) (hstoreA : Resumable cA storeA)
    (hstoreB : Resumable cB storeB)
    (hleA : a.sequences.expectedIncoming ≤ b.sequences.nextOutgoing)
    (hleB : b.sequences.expectedIncoming ≤ a.sequences.nextOutgoing) (now : Moment) :
    Settles (fun l => l.InSync ↔ a.sequences.expectedIncoming = b.sequences.nextOutgoing ∨
        b.sequences.expectedIncoming = a.sequences.nextOutgoing)
      ((⟨a, b, [], []⟩ : Link MemoryStore).act .a (.logon now)).2 := by
  obtain ⟨hfirstA, hnextA, hroomA⟩ := bounds_of_open ha hstoreA
  obtain ⟨hfirstB, hnextB, hroomB⟩ := bounds_of_open hb hstoreB
  have hstandsA := stands_of_open ha hstoreA
  have hstandsB := stands_of_open hb hstoreB
  obtain ⟨_, _, ⟨hpos, hseconds⟩, _⟩ := SessionConfig.validate_eq_ok_iff.mp hcA.valid
  have hvalidA := SeqNum.isValid_of_lt hnextA hroomA
  have hfollowingA := SeqNum.isValid_succ hroomA
  have hvalidB := SeqNum.isValid_of_lt hnextB hroomB
  have hfollowingB := SeqNum.isValid_succ hroomB
  obtain ⟨frame, t, hrun, ht, m, hm⟩ :=
    run_of_ends (ends_logon_initiator hcA hd hstandsA hroleA hvalidA now)
  rw [act_a, hrun]
  show Settles _ ⟨t, b, [], [frame]⟩
  have hawaits : Awaits cB .disconnected cA.heartbeatSeconds := .acceptor hroleB hpos hseconds
  -- Whether the acceptor has missed something shows as soon as the logon arrives.
  rcases UInt64.lt_or_eq_of_le hleB with hlt | heq
  · have hends (now : Moment) := ends_process_logon_gap hcB hd.symm hawaits hstandsB hvalidB
      (fun _ => hfollowingB) hm hlt now
    refine settles_of_receive_b hends fun r u hu => ?_
    obtain ⟨next', frames, request, m', houtbound, hanswers, hm', hu⟩ := hu
    obtain ⟨answer, mAnswer, rfl, hmAnswer, rfl⟩ := hanswers.of_acceptor hroleB
    rw [houtbound]
    refine (settles_answer_request hcA hd hroleA ht hfollowingA hu hm.genuine hm.type hfirstB hlt
      hmAnswer hm' hleA).mono fun l hl => hl.trans ?_
    exact (or_iff_left (UInt64.ne_of_lt hlt)).symm
  · rw [heq] at hstandsB
    have hends (now : Moment) := ends_process_logon hcB hd.symm hawaits hstandsB hvalidB hm now
    refine settles_of_receive_b hends fun r u hu => ?_
    obtain ⟨next', hanswers, hu⟩ := hu
    obtain ⟨answer, mAnswer, houtbound, hmAnswer, rfl⟩ := hanswers.of_acceptor hroleB
    rw [houtbound]
    refine (settles_answer hcA hcB hd hroleA ht hfollowingA hu hmAnswer hfirstA hleA).mono
      fun l hl => ?_
    exact iff_of_true hl (.inr heq)

end Link

namespace Sample

/-- The store of an initiator that has logged on and then done some more. -/
def initiatorStore (ops : List Operation) : MemoryStore :=
  ((fresh initiator .empty 0 : Session MemoryStore).run
    (.logon moment :: .receive (logon acceptor) moment :: ops)).2.store

/-- The store of an acceptor that has logged on and then done some more. -/
def acceptorStore (ops : List Operation) : MemoryStore :=
  ((fresh acceptor .empty 0 : Session MemoryStore).run
    (.receive (logon initiator) moment :: ops)).2.store

/-- An order is sent. -/
def order : Operation :=
  .send .newOrderSingle [] moment

/-- Two sides that go on from their stores, after the initiator has logged on. -/
def begun (storeA storeB : MemoryStore) : Link MemoryStore :=
  ((⟨fresh initiator storeA 0, fresh acceptor storeB 0, [], []⟩ : Link MemoryStore).act .a
    (.logon moment)).2

/-- The two sides after everything was delivered, to one and the other in turn. -/
def exchanged (storeA storeB : MemoryStore) : Link MemoryStore :=
  let l := begun storeA storeB
  let l := (l.deliver .b l.toB.length moment).2
  let l := (l.deliver .a l.toA.length moment).2
  (l.deliver .b l.toB.length moment).2

end Sample

namespace Link

/-- An order of the initiator was lost, and none of the acceptor: the two find each other again. -/
theorem settles_inSync_iff_lostOrder :
    let a : Session MemoryStore := .fresh Sample.initiator (Sample.initiatorStore [Sample.order]) 0
    let b : Session MemoryStore := .fresh Sample.acceptor (Sample.acceptorStore []) 0
    a.sequences.expectedIncoming = b.sequences.nextOutgoing ∧
      b.sequences.expectedIncoming < a.sequences.nextOutgoing ∧
      Settles InSync (Sample.begun (Sample.initiatorStore [Sample.order])
        (Sample.acceptorStore [])) := by
  intro a b
  have heq : a.sequences.expectedIncoming = b.sequences.nextOutgoing := by decide +kernel
  have hlt : b.sequences.expectedIncoming < a.sequences.nextOutgoing := by decide +kernel
  have hstoreA : Resumable Sample.initiator (Sample.initiatorStore [Sample.order]) :=
    resumable_of_run Sample.open_initiator (resumable_empty _) _ (by decide +kernel)
      (by decide +kernel) (by decide +kernel)
  have hstoreB : Resumable Sample.acceptor (Sample.acceptorStore []) :=
    resumable_of_run Sample.open_acceptor (resumable_empty _) _ (by decide +kernel)
      (by decide +kernel) (by decide +kernel)
  have ha : open? Sample.initiator (Sample.initiatorStore [Sample.order]) 0 = .ok a :=
    open?_eq_ok_iff.mpr ⟨Sample.validate_initiator, rfl⟩
  have hb : open? Sample.acceptor (Sample.acceptorStore []) 0 = .ok b :=
    open?_eq_ok_iff.mpr ⟨Sample.validate_acceptor, rfl⟩
  refine ⟨heq, hlt, ?_⟩
  refine (settles_inSync_iff ha hb rfl rfl Sample.speakable_initiator Sample.speakable_acceptor
    ⟨rfl, rfl, rfl⟩ hstoreA hstoreB (UInt64.le_of_eq heq) (UInt64.le_of_lt hlt)
    Sample.moment).mono fun l hl => ?_
  exact hl.mpr (.inl heq)

/-- An order of each side was lost: each side asks for the other's, nothing is on the wire any more,
and both wait. Nor do two sides find each other whose numbers agree, when the store of one holds a
message above its own counter. -/
theorem not_inSync_lostOrders :
    (let a : Session MemoryStore :=
        .fresh Sample.initiator (Sample.initiatorStore [Sample.order]) 0
      let b : Session MemoryStore := .fresh Sample.acceptor (Sample.acceptorStore [Sample.order]) 0
      let l := Sample.exchanged (Sample.initiatorStore [Sample.order])
        (Sample.acceptorStore [Sample.order])
      a.sequences.expectedIncoming ≤ b.sequences.nextOutgoing ∧
        b.sequences.expectedIncoming ≤ a.sequences.nextOutgoing ∧
        l.toA = [] ∧ l.toB = [] ∧ ¬ l.InSync) ∧
    (let kept := (MemoryStore.empty.append .inbound 5 []).2.setNextSeq .inbound 1
      let l := Sample.exchanged .empty kept
      kept.nextSeq .inbound = MemoryStore.empty.nextSeq .outbound ∧
        l.toA = [] ∧ l.toB = [] ∧ ¬ l.InSync) := by
  refine ⟨⟨by decide +kernel, by decide +kernel, by decide +kernel, by decide +kernel, ?_⟩,
    by decide +kernel, by decide +kernel, by decide +kernel, ?_⟩
  · intro h
    have hwaits : (Sample.exchanged (Sample.initiatorStore [Sample.order])
      (Sample.acceptorStore [Sample.order])).a.recovery.isRequesting = true := by decide +kernel
    rw [h.a.not_requesting] at hwaits
    cases hwaits
  · intro h
    have hended : (Sample.exchanged .empty
        ((MemoryStore.empty.append .inbound 5 []).2.setNextSeq .inbound 1)).b.state =
          .disconnected := by
      decide +kernel
    rw [h.b.state_eq] at hended
    cases hended

end Link

end FixProtocol
