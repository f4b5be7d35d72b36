import FixProtocol.Proofs.Network.Delivery
import FixProtocol.Proofs.Session.Draining
import FixProtocol.Proofs.Session.States

/-!
# A served request closes its gap

One side has an open request, and the other side answers it. The answers tile the range that was
asked for, and the side that asked takes them one after the other: nothing fails, what was missing
is handed over in order, and what waited behind the gap comes after it. The two halves meet at
`Tiles`, which the one side writes and the other side reads.

- `Genuine.isSaid`: whatever the other side has put out is something that a session would write.
- `Engaged`: one side of a session with the other; `engaged_run_of_open`: every run leaves it so.
- `run_heard`: frames that tile a range close the request for it.
- `request_closes_gap`: the whole exchange.
-/

namespace FixProtocol

namespace Session

open Call

variable {a b s t : Session MemoryStore} {c d : SessionConfig} {state : SessionState}
  {next expected first last n : SeqNum} {parked : List (SeqNum × Parked)} {p : Parked}

/-! ## What the other side says -/

/-- A request that a session numbered names both ends of its range. -/
theorem Produced.asks {frame : Bytes} {m : Message} (h : Produced c n frame)
    (hm : Message.decode c.beginString frame = .ok m) (htype : m.msgType = .resendRequest) :
    ∃ first last, m.nat64? .beginSeqNo = some first ∧ m.nat64? .endSeqNo = some last := by
  obtain ⟨s, type, body, time, rfl, hwrites, hencode⟩ := h
  obtain ⟨_, rfl⟩ := (decode_header_iff hencode).mp hm
  rw [msgType_header] at htype
  cases hwrites with
  | resendRequest first last =>
    exact ⟨first, last, nat64?_header (by decide) rfl (Field.nat64_ofSeqNum .beginSeqNo first),
      nat64?_header (by decide) rfl (Field.nat64_ofSeqNum .endSeqNo last)⟩
  | application _ _ happ =>
    rw [isAppCode, htype] at happ
    cases happ
  | _ => exact absurd htype (by decide)

/-- Whatever the sender has put out is something that a session would write. -/
theorem Genuine.isSaid (hkept : Kept a) (hversion : c.beginString = a.config.beginString)
    (hp : Genuine (.ofSender a) c n p) : IsSaid c n p := by
  have htells : Tells a p.message := hp.frame p.message (hversion ▸ hp.decoded)
  have hnumber := hp.numbered
  refine { hp.mono (fun _ _ => trivial) with asks := ?_, fills := ?_ }
  · intro htype
    generalize p.message = m at htells htype
    cases htells with
    | stored hmem hdecode => exact (hkept _ hmem).asks hdecode htype
    | again hmem hresend time =>
      have happ := (Resend.resendable?_eq_some_iff.mp hresend).2
      rw [Resend.msgType_duplicate] at htype
      rw [htype] at happ
      cases happ
    | fill hsilent time =>
      rw [msgType_gapFill] at htype
      cases htype
  · intro htype
    generalize p.message = m at htells htype hnumber
    cases htells with
    | stored hmem hdecode => exact absurd htype ((hkept _ hmem).decode hdecode).2.2
    | again hmem hresend time =>
      have happ := (Resend.resendable?_eq_some_iff.mp hresend).2
      rw [Resend.msgType_duplicate] at htype
      rw [htype] at happ
      cases happ
    | @fill k following hsilent time =>
      rw [seqNum?_gapFill] at hnumber
      obtain rfl := Option.some.inj hnumber
      exact ⟨following, newSeqNo_gapFill, hsilent.lt⟩

/-! ## One side -/

/-- One side of a session with the other, between two calls. Its journals end before its numbers,
what it keeps to send was produced by it, what waits was put out by the other side, and there are
numbers left to answer everything that waits. -/
structure Engaged (s peer : Session MemoryStore) : Prop where
  settled : Settled s
  moderate : Moderate s
  inbound : s.store.inbound.last < s.sequences.expectedIncoming
  outbound : s.store.outbound.last < s.sequences.nextOutgoing
  kept : Kept s
  short : ∀ e ∈ s.store.outbound.entries, e.2.length < 2 ^ 63
  parked : Sound (.ofSender peer) s
  numbers : s.sequences.nextOutgoing.toNat + s.recovery.parked.length < SeqNum.top.toNat

theorem Engaged.stands (h : Engaged s t) (hstate : s.state.isEstablished = true) :
    Stands s.config s.state s.sequences.nextOutgoing s.sequences.expectedIncoming
      s.recovery.parked (s.recovery.pending.map ResendRange.last) s where
  config_eq := rfl
  state_eq := rfl
  isOpen := (h.settled.idles hstate).isOpen
  next_eq := rfl
  expected_eq := rfl
  inbound := h.inbound
  outbound := h.outbound
  servable := by
    refine ⟨fun e he => ?_, fun e he _ _ => h.short e he⟩
    obtain ⟨u, type, body, time, hconfig, _, hencode⟩ := h.kept e he
    exact ⟨u, type, body, time, hconfig, hencode⟩
  room := by
    obtain ⟨_, _, _, _, _, _, _, _, _, hroom⟩ :=
      SessionConfig.validate_eq_ok_iff.mp (h.settled.idles hstate).introduced.valid
    rw [h.moderate.room]
    exact Nat.pos_of_ne_zero hroom
  parked_eq := rfl
  asked_eq := rfl

/-- The outbound journal ends before the number that the session goes on with, unless it is full. -/
def Ahead (s : Session MemoryStore) : Prop :=
  s.store.outbound.last < s.sequences.nextOutgoing ∨ s.store.outbound.last = .top

theorem Ahead.of_eq (hs : Ahead s) (hstore : t.store.outbound = s.store.outbound)
    (hnext : t.sequences.nextOutgoing = s.sequences.nextOutgoing) : Ahead t := by
  unfold Ahead
  rw [hstore, hnext]
  exact hs

theorem Ahead.move {I : Inputs} {r : Reaction} (hs : Ahead s) (h : Move I s r t) : Ahead t := by
  rcases h.outbound_cases with ⟨hstore, hnext⟩ | ⟨_, _, _, _, j, _, _, hj, rfl⟩
  · exact hs.of_eq hstore hnext
  · have hlast : j.last = s.sequences.nextOutgoing := (Journal.last_append hj).2
    by_cases htop : s.sequences.nextOutgoing = .top
    · exact .inr (hlast.trans htop)
    · refine .inl (UInt64.lt_iff_toNat_lt.mpr ?_)
      show j.last.toNat < (s.sequences.nextOutgoing + 1).toNat
      rw [hlast, SeqNum.toNat_succ htop]
      exact Nat.lt_succ_self _

/-- Every run leaves a side engaged that began with a store that it can go on with and gets nothing
but what the other side has put out, as long as its frames are short and it has numbers left. -/
theorem engaged_run_of_open {peer : Session MemoryStore} {store : MemoryStore} {start : Nat}
    {ops : List Operation} (h : open? c store start = .ok s) (hstore : Resumable c store)
    (hproduced : ∀ e ∈ store.outbound.entries, Produced c e.1 e.2)
    (hops : ∀ op ∈ ops, op.Within ⟨Truthful peer, isAppCode⟩)
    (hshort : ∀ e ∈ (s.run ops).2.store.outbound.entries, e.2.length < 2 ^ 63)
    (hlast : (s.run ops).2.store.outbound.last < .top)
    (hnumbers : (s.run ops).2.sequences.nextOutgoing.toNat +
      (s.run ops).2.recovery.parked.length < SeqNum.top.toNat) :
    Engaged (s.run ops).2 peer := by
  have hran := ran (sound_of_open h) hops
  have hkept : Kept s := by
    obtain ⟨_, rfl⟩ := open?_eq_ok_iff.mp h
    exact hproduced
  have hahead : Ahead s := by
    obtain ⟨_, rfl⟩ := open?_eq_ok_iff.mp h
    exact .inl (SeqNum.lt_max_left _ hstore.outbound)
  exact
    { settled := settled_run_of_open h ops
      moderate := moderate_run_of_open h ops
      inbound := ((orderly_of_open h hstore).ran hran).expected
      outbound := (hran.keeps (fun hmove hs => hs.move hmove)
        (fun hfault hs => hs.of_eq hfault.outbound_eq.1 hfault.outbound_eq.2) hahead).resolve_right
          (UInt64.ne_of_lt hlast)
      kept := hran.keeps (fun hmove hs => hs.grows (hmove.grows fun _ h => h))
        (fun hfault hs => hs.grows hfault.grows) hkept
      short := hshort
      parked := fun e he => ((sound_of_open h).ran hran e he).mono fun _ h => h
      numbers := hnumbers }

/-! ## The side that asked -/

/-- The request that ended at `last` is closed. -/
structure Filled (last : SeqNum) (t : Session MemoryStore) : Prop where
  past : last < t.sequences.expectedIncoming
  closed : ∀ range ∈ t.recovery.pending, last < range.first

/-- After an answer was taken, the rest is awaited, or the gap is closed and what waited behind it
is taken. -/
inductive Heard (c : SessionConfig) (state : SessionState) (next : SeqNum)
    (parked : List (SeqNum × Parked)) (last following : SeqNum) (later : List Message)
    (t : Session MemoryStore) : Prop
  | awaits (hle : following ≤ last) (hnone : later = [])
      (h : Stands c state next following parked (some last) t)
  | filled (heq : following = last + 1) (hlater : ∀ m ∈ later, ∃ e ∈ parked, e.2.message = m)
      (h : Filled last t)

section
variable (hc : Speakable c) (hsaid : ∀ e ∈ parked, IsSaid c e.1 e.2)
  (hbehind : ∀ e ∈ parked, last < e.1) (hnumbers : next.toNat + parked.length < SeqNum.top.toNat)
include hc hsaid hbehind hnumbers

/-- What waits is taken when nothing is missing any more. -/
theorem ends_drain_heard (h : Stands c state next expected parked (some last) s)
    (hle : expected ≤ last + 1) (now : Moment) :
    Ends (drain now) s (fun r t => Heard c state next parked last expected r.delivered t)
      Never := by
  by_cases hmissing : expected ≤ last
  · refine (ends_drain_behind h hmissing hbehind now).imp ?_
    rintro _ t ⟨rfl, ht⟩
    exact .awaits hmissing rfl ht
  · have hlt : last < expected := UInt64.not_le.mp hmissing
    have heq : expected = last + 1 := UInt64.le_antisymm hle (SeqNum.succ_le_of_lt hlt)
    refine (ends_drain_said hc h hsaid hnumbers now).imp ?_
    rintro r t ⟨hlater, _, hexpected, hpending⟩
    refine .filled heq hlater ⟨UInt64.lt_of_lt_of_le hlt hexpected, fun range hrange => ?_⟩
    rcases hpending range hrange with ⟨hasked, hopen⟩ | hfirst
    · rw [← Option.some.inj hasked] at hopen
      exact absurd hlt (UInt64.not_lt.mpr hopen)
    · exact UInt64.lt_of_lt_of_le hlt hfirst

/-- An answer is taken: a message that was sent again is handed over, and a gap fill hands nothing
over. -/
theorem ends_process_heard (hstate : state = .loggedOn ∨ state = .logoutSent)
    (h : Stands c state next n parked (some last) s) {frame : Bytes} {frames : List Bytes}
    (htiles : Tiles c (frame :: frames) n (last + 1)) (now : Moment) :
    Ends (process frame now) s
      (fun r t => ∃ m following later, Message.decode c.beginString frame = .ok m ∧
        Tiles c frames following (last + 1) ∧
        r.delivered = [m].filter (·.msgType.isApp) ++ later ∧
        Heard c state next parked last following later t) Never := by
  refine ends_process_tiled hstate h htiles now fun m following t hdecode tail ht => ?_
  refine (ends_drain_heard hc hsaid hbehind hnumbers ht tail.le now).imp ?_
  intro r u hheard
  exact ⟨m, following, r.delivered, hdecode, tail, rfl, hheard⟩

/-- Frames that tile the range that was asked for are taken one after the other. No call fails, the
application messages among them are handed over, and after them messages that waited. The induction
is on the frames. -/
theorem run_heard (hstate : state = .loggedOn ∨ state = .logoutSent) {frames : List Bytes}
    (h : Stands c state next n parked (some last) s) (htiles : Tiles c frames n (last + 1))
    (hle : n ≤ last) (hlast : last < .top) (times : List Moment)
    (hlength : times.length = frames.length) :
    ∃ (reactions : List Reaction) (ms later : List Message),
      (s.run (arrivals (frames.zip times))).1 = reactions.map (fun r => .reacted (.ok r)) ∧
      List.Forall₂ (fun frame m => Message.decode c.beginString frame = .ok m) frames ms ∧
      reactions.flatMap Reaction.delivered = ms.filter (·.msgType.isApp) ++ later ∧
      (∀ m ∈ later, ∃ e ∈ parked, e.2.message = m) ∧
      Filled last (s.run (arrivals (frames.zip times))).2 := by
  induction frames generalizing s n times with
  | nil =>
    cases htiles
    have hlt : last < last + 1 := by grind
    exact absurd hle (UInt64.not_le.mpr hlt)
  | cons frame frames ih =>
    obtain ⟨time, times, rfl⟩ := List.exists_cons_of_length_eq_add_one hlength
    obtain ⟨r, t, hreceive, m, following, later, hdecode, htail, hdelivered, hheard⟩ :=
      receive_of_ends (ends_process_heard hc hsaid hbehind hnumbers hstate h htiles time)
    have hrun : s.run (arrivals ((frame :: frames).zip (time :: times))) =
        (.reacted (.ok r) :: (t.run (arrivals (frames.zip times))).1,
          (t.run (arrivals (frames.zip times))).2) := by
      show s.run (.receive frame time :: arrivals (frames.zip times)) = _
      rw [run, step, hreceive]
    rw [hrun]
    have hlength : times.length = frames.length := Nat.succ.inj hlength
    cases hheard with
    | awaits hle hnone ht =>
      obtain ⟨reactions, ms, later', houtcomes, hdecodes, hmore, hlater, hfilled⟩ :=
        ih ht htail hle times hlength
      refine ⟨r :: reactions, m :: ms, later', ?_, .cons hdecode hdecodes, ?_, hlater, hfilled⟩
      · rw [houtcomes]
        rfl
      · rw [List.flatMap_cons, hdelivered, hnone, hmore, List.append_nil, ← List.append_assoc,
          ← List.filter_append]
        rfl
    | filled heq hlater hfilled =>
      -- That was the last answer: a further one would stand for a number.
      cases frames with
      | cons _ _ => exact absurd (heq ▸ htail.lt) (UInt64.lt_irrefl _)
      | nil =>
        refine ⟨[r], [m], later, rfl, .cons hdecode .nil, ?_, hlater, hfilled⟩
        rw [List.flatMap_singleton]
        exact hdelivered

end

/-! ## The side that answers -/

/-- The numbers from `first` to `last`, counted as numbers. -/
theorem sentApplications_eq (a : Session MemoryStore) (htop : last < .top) :
    a.sentApplications first (last + 1) = applications a.config.beginString
      (a.store.outbound.entries.filter fun e =>
        first.toNat ≤ e.1.toNat && e.1.toNat < last.toNat + 1) := by
  unfold sentApplications
  congr 1
  refine List.filter_congr fun e _ => ?_
  rw [← SeqNum.toNat_succ (UInt64.ne_of_lt htop)]
  simp only [UInt64.le_iff_toNat_le, UInt64.lt_iff_toNat_lt]

/-- What frames are read as is what they read as. -/
theorem eq_of_readsAs {version : String} {frames : List Bytes} {ms ms' : List Message}
    (h : List.Forall₂ (ReadsAs version) frames ms)
    (h' : List.Forall₂ (fun frame m => Message.decode version frame = .ok m) frames ms') :
    ms' = ms := by
  induction h generalizing ms' with
  | nil =>
    cases h'
    rfl
  | cons hreads _ ih =>
    cases h' with
    | cons hdecode htail => rw [hreads _ hdecode, ih htail]

/-- A request for numbers that were used is answered: the answers tile the range for the other side,
and the application messages among them are those that are kept. -/
theorem ends_serveResend_answers {m : Message} (hc : Speakable s.config) (hd : Mirrored s.config d)
    (hservable : Servable s.config s.store.outbound.entries)
    (hbegin : m.nat64? .beginSeqNo = some first) (hend : m.nat64? .endSeqNo = some last)
    (hfirst : .first ≤ first) (hle : first ≤ last) (hlast : last < s.sequences.nextOutgoing)
    (now : Moment) :
    Ends (serveResend m now) s
      (fun r t => ∃ answers ms heartbeat, r = ⟨answers, [], []⟩ ∧ t = { s with heartbeat } ∧
        Tiles d answers first (last + 1) ∧
        List.Forall₂ (ReadsAs s.config.beginString) answers ms ∧
        List.Forall₂ Resend.Repeats (s.sentApplications first (last + 1))
          (ms.filter (·.msgType.isApp))) Never := by
  have hbegun : requestedNumber m .beginSeqNo "BeginSeqNo" = .ok first := by
    rw [requestedNumber, hbegin]
  have hasked : requestedNumber m .endSeqNo "EndSeqNo" = .ok last := by
    rw [requestedNumber, hend]
  have hmax : max first .first = first := SeqNum.max_first_of_le hfirst
  have hrequested : s.lastRequested last = last :=
    lastRequested_of_lt (UInt64.le_trans hfirst hle) hlast
  have htiles := ends_serveResend_tiles hc hd hservable hbegin hend hfirst hle hlast now
  have hplanned := ends_serveResend_planned hservable.keyed hc hbegun hasked now
  rw [hmax, hrequested] at hplanned
  refine (htiles.and hplanned).mono ?_ (fun _ _ h => h.1)
  rintro _ _ ⟨⟨rfl, answers, rfl, htiles⟩, frames, ms, _, hsame, _, hreads, _, _, htiled⟩
  obtain rfl : answers = frames := congrArg Reaction.outbound hsame
  refine ⟨answers, ms, _, rfl, rfl, htiles, hreads, ?_⟩
  rw [sentApplications_eq s (UInt64.lt_of_lt_of_le hlast (by grind))]
  exact (htiled hle).resent

/-- A request is served, and then what waited behind it is taken. No call fails. -/
theorem ends_process_served (h : Engaged a b) (hb : Kept b) (hd : Mirrored a.config b.config)
    (hstate : a.state = .loggedOn)
    (hp : IsRequest a.config a.sequences.expectedIncoming first last p) (hfirst : .first ≤ first)
    (hle : first ≤ last) (hsent : last < a.sequences.nextOutgoing) (now : Moment) :
    Ends (process p.frame now) a
      (fun r _ => ∃ answers ms more, r.outbound = answers ++ more ∧
        (a.recovery.parked = [] → more = []) ∧
        Tiles b.config answers first (last + 1) ∧
        List.Forall₂ (ReadsAs a.config.beginString) answers ms ∧
        List.Forall₂ Resend.Repeats (a.sentApplications first (last + 1))
          (ms.filter (·.msgType.isApp))) Never := by
  have hsaid : ∀ e ∈ a.recovery.parked, IsSaid a.config e.1 e.2 :=
    fun e he => (h.parked e he).isSaid hb hd.beginString.symm
  have hestablished : a.state.isEstablished = true := hstate ▸ rfl
  have hc : Speakable a.config := (h.settled.idles hestablished).speakable hestablished
  refine ends_process_next (.inl hstate) (h.stands hestablished) hp.genuine hp.isPlainReset_eq now
    fun t ht houtbound => ?_
  have hconfig : t.config = a.config := ht.config_eq
  have hsent : last < t.sequences.nextOutgoing := ht.next_eq.symm ▸ hsent
  have hanswers := ends_serveResend_answers (s := t) (d := b.config) (hconfig.symm ▸ hc)
    (hconfig.symm ▸ hd) (hconfig.symm ▸ ht.servable) hp.first_eq hp.last_eq hfirst hle hsent now
  have happlications : t.sentApplications first (last + 1) =
      a.sentApplications first (last + 1) := by
    rw [sentApplications, sentApplications, hconfig, houtbound]
  refine ends_dispatch_resendRequest hp.type (hanswers.imp ?_)
  rintro _ _ ⟨answers, ms, heartbeat, rfl, rfl, htiles, hreads, hrepeats⟩
  rw [hconfig] at hreads
  rw [happlications] at hrepeats
  refine (ends_drain_said hc (ht.clock heartbeat) hsaid h.numbers now).imp ?_
  rintro more _ ⟨_, hnothing, _⟩
  refine ⟨answers, ms, more.outbound, rfl, fun hnil => ?_, htiles, hreads, hrepeats⟩
  rw [hnothing hnil]
  rfl

/-! ## The exchange -/

/-- Two sides of one session. The side `b` has an open request, expects the first number of its
range, and nothing waits at it that it has asked for. The side `a` is logged on, has used all
numbers of the range, and expects the number of the frame in which `b` writes its request.

Then `a` takes the request without fail. What it puts out begins with the answers; what follows
answers messages that had waited at `a`, and there is nothing of it if none had. And `b` takes the
answers, one after the other and at any times, without fail: afterwards the request is closed, the
number that `b` expects is above it, and `b` has handed over just the application messages that `a`
keeps under the numbers of the range, in order, and then only messages that had waited. -/
theorem request_closes_gap (hd : Mirrored a.config b.config) (ha : Engaged a b) (hb : Engaged b a)
    (hstate : a.state = .loggedOn) {range : ResendRange}
    (hpending : b.recovery.pending = some range)
    (hexpected : b.sequences.expectedIncoming = range.first)
    (hbehind : ∀ e ∈ b.recovery.parked, range.last < e.1)
    (hsent : range.last < a.sequences.nextOutgoing) (hnumber : a.sequences.expectedIncoming < .top)
    {written : Timestamp} {request : Bytes}
    (hrequest : Wire.encode (b.header .resendRequest a.sequences.expectedIncoming written ++
      [.ofSeqNum .beginSeqNo range.first, .ofSeqNum .endSeqNo range.last]) = .ok request)
    (now : Moment) :
    ∃ reaction a' answers more, a.receive request now = (.ok reaction, a') ∧
      reaction.outbound = answers ++ more ∧ (a.recovery.parked = [] → more = []) ∧
      Tiles b.config answers range.first (range.last + 1) ∧
      ∀ times : List Moment, times.length = answers.length →
        ∃ (reactions : List Reaction) (b' : Session MemoryStore) (resent later : List Message),
          b.run (arrivals (answers.zip times)) =
            (reactions.map fun r => .reacted (.ok r), b') ∧
          (∀ open? ∈ b'.recovery.pending, range.last < open?.first) ∧
          range.last < b'.sequences.expectedIncoming ∧
          reactions.flatMap Reaction.delivered = resent ++ later ∧
          List.Forall₂ Resend.Repeats (a.sentApplications range.first (range.last + 1)) resent ∧
          ∀ m ∈ later, ∃ e ∈ b.recovery.parked, e.2.message = m := by
  have hestablished := hb.settled.isEstablished_of_pending hpending
  have hidles := hb.settled.idles hestablished
  have hle : range.first ≤ range.last :=
    hexpected ▸ (hidles.waits.range range (Option.mem_def.mpr hpending)).2
  have hfirst : .first ≤ range.first :=
    SeqNum.succ_le_of_lt (UInt64.lt_of_le_of_lt UInt64.zero_le (hexpected ▸ hb.inbound))
  have hvalid : a.sequences.expectedIncoming.isValid = true := SeqNum.isValid_of_lt
    (SeqNum.succ_le_of_lt (UInt64.lt_of_le_of_lt UInt64.zero_le ha.inbound)) hnumber
  have htop : range.last < .top := UInt64.lt_of_lt_of_le hsent (by grind)
  have hasked : b.recovery.pending.map ResendRange.last = some range.last := by
    rw [hpending]
    rfl
  have hsaid : ∀ e ∈ b.recovery.parked, IsSaid b.config e.1 e.2 :=
    fun e he => (hb.parked e he).isSaid ha.kept hd.beginString
  obtain ⟨reaction, a', hreceive, answers, ms, more, houtbound, hmore, htiles, hreads, hresent⟩ :=
    receive_of_ends (ends_process_served ha hb.kept hd hstate
      (isRequest_of_encode hd.symm hvalid hrequest) hfirst hle hsent now)
  refine ⟨reaction, a', answers, more, hreceive, houtbound, hmore, htiles, fun times hlength => ?_⟩
  have hstands := hb.stands hestablished
  rw [hasked, hexpected] at hstands
  obtain ⟨reactions, ms', later, houtcomes, hdecodes, hdelivered, hlater, hfilled⟩ :=
    run_heard (hidles.speakable hestablished) hsaid hbehind hb.numbers
      (SessionState.isEstablished_iff.mp hestablished) hstands htiles hle htop times hlength
  obtain rfl : ms' = ms := eq_of_readsAs hreads (hd.beginString ▸ hdecodes)
  exact ⟨reactions, _, _, later, Prod.ext houtcomes rfl, hfilled.closed, hfilled.past, hdelivered,
    hresent, hlater⟩

end Session

namespace Sample

open Session

/-- An initiator that has sent an order, a heartbeat and an order after its logon. -/
def initiatorAhead : Session MemoryStore :=
  (run (.fresh initiator .empty 0) [.logon moment, .receive (logon acceptor) moment,
    .send .newOrderSingle [] moment, .timer (moment.later 30000),
    .send .newOrderSingle [] moment]).2

/-- An acceptor that the first order and the heartbeat have not reached. -/
def acceptorBehind : Session MemoryStore :=
  (run (.fresh acceptor .empty 0) [.receive (logon initiator) moment,
    .receive (frame initiator .newOrderSingle 4 []) moment]).2

/-- The acceptor asks for what it has missed. -/
def requestMissed : Bytes :=
  frame acceptor .resendRequest 2 [.ofSeqNum .beginSeqNo 2, .ofSeqNum .endSeqNo 3]

/-- What the initiator puts out when it is asked. -/
def answersMissed : List Bytes :=
  ((initiatorAhead.receive requestMissed moment).1.toOption.getD .empty).outbound

theorem engaged_initiatorAhead : Engaged initiatorAhead acceptorBehind := by
  refine engaged_run_of_open open_initiator (resumable_empty _) nofun (fun op hop => ?_)
    (by decide +kernel) (by decide +kernel) (by decide +kernel)
  simp only [List.mem_cons, List.not_mem_nil, or_false] at hop
  rcases hop with rfl | rfl | rfl | rfl | rfl
  · trivial
  · exact fun m hm => .stored (n := 1) (by decide +kernel) hm
  · rfl
  · trivial
  · rfl

theorem engaged_acceptorBehind : Engaged acceptorBehind initiatorAhead := by
  refine engaged_run_of_open open_acceptor (resumable_empty _) nofun (fun op hop => ?_)
    (by decide +kernel) (by decide +kernel) (by decide +kernel)
  rcases List.mem_pair.mp hop with rfl | rfl
  · exact fun m hm => .stored (n := 1) (by decide +kernel) hm
  · exact fun m hm => .stored (n := 4) (by decide +kernel) hm

end Sample

namespace Session

open Sample

/-- The order that was lost is handed over before the one that had waited, and nothing stands for
the heartbeat between them. -/
theorem request_closes_gap_orders :
    ∃ (reactions : List Reaction) (b' : Session MemoryStore) (resent later : List Message),
      answersMissed.length = 2 ∧
      acceptorBehind.run (arrivals (answersMissed.zip [moment, moment])) =
        (reactions.map fun r => .reacted (.ok r), b') ∧
      3 < b'.sequences.expectedIncoming ∧
      reactions.flatMap Reaction.delivered = resent ++ later ∧
      resent.map Message.seqNum? = [some 2] ∧ later.map Message.seqNum? = [some 4] ∧
      List.Forall₂ Resend.Repeats (initiatorAhead.sentApplications 2 4) resent := by
  have hmirrored : Mirrored initiatorAhead.config acceptorBehind.config := by
    rw [show initiatorAhead.config = initiator from config_run_of_open open_initiator _,
      show acceptorBehind.config = acceptor from config_run_of_open open_acceptor _]
    exact ⟨rfl, rfl, rfl⟩
  have hpending : acceptorBehind.recovery.pending = some ⟨2, 3, 1, 0⟩ := by decide +kernel
  have hrequest : (Wire.encode (acceptorBehind.header .resendRequest
      initiatorAhead.sequences.expectedIncoming moment.utc ++
        [.ofSeqNum .beginSeqNo 2, .ofSeqNum .endSeqNo 3])).toOption = some requestMissed := by
    decide +kernel
  obtain ⟨reaction, a', answers, more, hreceive, houtbound, hnone, _, hserved⟩ :=
    request_closes_gap hmirrored engaged_initiatorAhead engaged_acceptorBehind (by decide +kernel)
      hpending (by decide +kernel) (by decide +kernel) (by decide +kernel) (by decide +kernel)
      (eq_ok_of_toOption hrequest) moment
  have hanswers : answers = answersMissed := by
    rw [answersMissed, hreceive]
    show answers = reaction.outbound
    rw [houtbound, hnone (by decide +kernel), List.append_nil]
  have hlength : answersMissed.length = 2 := by decide +kernel
  rw [hanswers] at hserved
  obtain ⟨reactions, b', resent, later, hrun, _, hpast, hdelivered, hrepeats, _⟩ :=
    hserved [moment, moment] hlength.symm
  have hnumbers : ((acceptorBehind.run (arrivals (answersMissed.zip [moment, moment]))).1.flatMap
      Outcome.delivered).map Message.seqNum? = [some 2, some 4] := by decide +kernel
  rw [hrun, List.flatMap_map] at hnumbers
  have hboth : resent.map Message.seqNum? ++ later.map Message.seqNum? = [some 2] ++ [some 4] := by
    rw [← List.map_append, ← hdelivered]
    exact hnumbers
  have hone : (resent.map Message.seqNum?).length = [some (2 : SeqNum)].length := by
    rw [List.length_map, ← hrepeats.length_eq]
    decide +kernel
  obtain ⟨hresent, hlater⟩ := List.append_inj hboth hone
  exact ⟨reactions, b', resent, later, hlength, hrun, hpast, hdelivered, hresent, hlater, hrepeats⟩

end Session

end FixProtocol
