import FixProtocol.Proofs.Engine.Output

/-!
# What a task gives the application

A session hands the messages of a reaction over together with the frames to write, and a task writes
the frames first. So the application is given the messages of one reaction after the other, each once
and in order, as long as the transport takes the frames. The messages of the reaction whose frames
could not all be written are given to nobody: the task gives the session up, which has taken these
messages and will not ask for them again.

- `SessionTask.Concludes.gives_reaction`: what becomes of the messages of one reaction.
- `SessionTask.run_hands_over`: it is so in every run.
-/

namespace FixProtocol

namespace SessionTask

variable {σ : Type} [MessageStore σ] {fault : Option (Nat × String)} {session : Session σ}
  {ops before after : List Session.Operation} {op : Session.Operation} {t : SessionTask σ}

/-- The application was given everything that the operations hand over, or the task is over and what
the last one before the end hands over is missing. -/
theorem Concludes.given (h : Concludes fault session ops t) :
    t.given = session.handedBy ops ∨
      t.isRunning = false ∧ ∃ before op now, ops = before ++ [op, .disconnect now] ∧
        t.given = session.handedBy before ∧
        ¬ session.produced (before ++ [op]) <+: t.written := by
  obtain ⟨settled, rest, hops, _, hgiven, rfl | ⟨op, now, rfl, hcut⟩⟩ := h.settled
  · rw [List.append_nil] at hops
    exact .inl (hops ▸ hgiven)
  · refine .inr ⟨h.cut fun hwritten => hcut ?_, settled, op, now, hops, hgiven, hcut⟩
    rw [hwritten, hops]
    exact session.isPrefix_flatMap_run _ ⟨[.disconnect now], List.append_assoc _ _ _⟩

/-- The messages of a reaction are given, after those of the reactions before it, if its frames were
all written; if not, nothing is given any more. -/
theorem Concludes.gives_reaction (h : Concludes fault session ops t)
    (hops : ops = before ++ op :: after) {reaction : Reaction}
    (hreacts : ((session.run before).2.step op).1 = .reacted (.ok reaction)) :
    (session.produced (before ++ [op]) <+: t.written →
      session.handedBy before ++ reaction.delivered <+: t.given) ∧
    (¬ session.produced (before ++ [op]) <+: t.written → t.given = session.handedBy before) := by
  have hhanded : session.handedBy (before ++ [op]) =
      session.handedBy before ++ reaction.delivered :=
    Session.handedBy_concat (Prod.ext hreacts rfl)
  rw [← hhanded]
  have hfirst : before ++ [op] <+: ops := ⟨after, by rw [hops, List.append_assoc]; rfl⟩
  obtain ⟨settled, rest, hsettled, hwritten, hgiven, hrest⟩ := h.settled
  -- Either the reaction is among what was settled, or it is the one whose frames were cut off.
  rcases List.prefix_or_prefix_of_prefix hfirst ⟨rest, hsettled.symm⟩ with hinside | hbeyond
  · have htaken := (session.isPrefix_flatMap_run _ hinside).trans hwritten
    exact ⟨fun _ => hgiven ▸ session.isPrefix_flatMap_run _ hinside, fun hcut => absurd htaken hcut⟩
  rcases List.prefix_concat_iff.mp hbeyond with rfl | ⟨between, rfl⟩
  · exact ⟨fun _ => hgiven ▸ List.prefix_rfl, fun hcut => absurd hwritten hcut⟩
  have hleft : rest = between ++ op :: after := by
    rw [hsettled, List.append_assoc] at hops
    exact List.append_cancel_left hops
  rcases hrest with rfl | ⟨last, now, rfl, hcut⟩
  · exact absurd hleft (by simp)
  match between, hleft with
  | [], hleft =>
    obtain ⟨rfl, _⟩ := List.cons.inj hleft
    rw [List.append_nil]
    exact ⟨fun htaken => absurd htaken hcut, fun _ => hgiven⟩
  | [_], hleft =>
    obtain ⟨_, hleft⟩ := List.cons.inj hleft
    obtain ⟨rfl, _⟩ := List.cons.inj hleft
    cases hreacts
  | _ :: _ :: _, hleft => exact absurd (congrArg List.length hleft) (by simp)

/-- Over every session and store, and for every run of a task. What was written is what the calls on
the session put out, up to the first write that failed. The application was given what these calls
hand over, each message once and in order; only if a write failed, which ends the task, is the last
call before the end missing. So the messages of a reaction are given if all its frames were written,
and if not, none of them is. -/
theorem run_hands_over (session : Session σ) (fault : Option (Nat × String)) (start : Moment)
    (events : List (Event × Moment)) :
    let task := ((ofSession session fault).begin start).run events
    ∃ opening calls, (∀ op ∈ opening, Begins start op) ∧ AskedBy events calls ∧
      let ops := opening ++ calls.flatten
      task.session = (session.run ops).2 ∧
      task.written = taken fault (session.produced ops) ∧
      (task.given = session.handedBy ops ∨
        task.isRunning = false ∧ ∃ before op now, ops = before ++ [op, .disconnect now] ∧
          task.given = session.handedBy before ∧
          ¬ session.produced (before ++ [op]) <+: task.written) ∧
      ∀ before op after reaction, ops = before ++ op :: after →
        ((session.run before).2.step op).1 = .reacted (.ok reaction) →
        (session.produced (before ++ [op]) <+: task.written →
          session.handedBy before ++ reaction.delivered <+: task.given) ∧
        (¬ session.produced (before ++ [op]) <+: task.written →
          task.given = session.handedBy before) := by
  intro task
  obtain ⟨opening, calls, hopening, hcalls, hconcludes⟩ :=
    begun_concludes session fault start events
  exact ⟨opening, calls, hopening, hcalls, hconcludes.session_eq, hconcludes.written_eq,
    hconcludes.given, fun _ _ _ _ hops => hconcludes.gives_reaction hops⟩

/-- An acceptor misses the message before a test request. When it arrives, an order, the session has
the order and the answer to the test request at once, and the transport breaks at the answer. Then
the order was taken, and the application was never given it. -/
theorem run_hands_over_broken :
    let session : Session MemoryStore := .fresh Sample.acceptor .empty 0
    let received (type : MsgType) (n : SeqNum) (body : List Field) : Event × Moment :=
      (.received (Sample.frame Sample.initiator type n body), Sample.moment)
    let events := [received .logon 1 [.ofNat .encryptMethod 0, .ofNat .heartBtInt 30],
      received .testRequest 3 [.ofText .testReqId "T"], received .newOrderSingle 2 []]
    let task (fault : Option (Nat × String)) :=
      ((ofSession session fault).begin Sample.moment).run events
    let broken := task (some (2, "broken pipe"))
    (task none).given.map Message.seqNum? = [some 2] ∧ broken.given = [] ∧
      broken.session.store.inbound.entries.map Prod.fst = [1, 2, 3] ∧
      broken.session.sequences.expectedIncoming = 4 ∧
      ∃ ops, broken.session = (session.run ops).2 ∧
        broken.written = (session.produced ops).take 2 := by
  intro session received events task broken
  have hruns : (task none).given.map Message.seqNum? = [some 2] ∧ broken.given = [] ∧
      broken.session.store.inbound.entries.map Prod.fst = [1, 2, 3] ∧
      broken.session.sequences.expectedIncoming = 4 := by
    decide +kernel
  obtain ⟨_, _, _, _, hsession, hwritten, _⟩ :=
    run_hands_over session (some (2, "broken pipe")) Sample.moment events
  exact ⟨hruns.1, hruns.2.1, hruns.2.2.1, hruns.2.2.2, _, hsession, hwritten⟩

end SessionTask

end FixProtocol
