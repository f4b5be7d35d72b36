import FixProtocol.Proofs.Session.Sizes
import FixProtocol.Proofs.Wire.Limit

/-!
# The limit and what a task writes

The limit of a session bounds the frames that it reads, and nothing else. What its task writes is
what the session puts out, of whatever length, so a counterparty with the same limit may find a frame
that it cannot take, and then it takes nothing any more. That does not happen while all that is kept
leaves room for being sent again.

- `SessionTask.run_writes_unlimited`: what is written, how long it is, and what is read of it.
-/

namespace FixProtocol.SessionTask

open Session (Headed fillRoom)

/-- Over every run of a task for a new session whose store holds only frames with its header.

What was written is what the calls on the session put out, in order and with nothing left out, up to
the first write that failed; how long the frames are does not matter. The frame of a send is longer
than its fields, so it is over the limit if these are. If all that is kept at the end leaves room for
being sent again, and the limit is no shorter than a gap fill, then the limit allows everything that
was written. And whoever reads it with the same limit, in whatever chunks, gets the frames before
the first that does not fit, and meets an error unless there is none. -/
theorem run_writes_unlimited {config : SessionConfig} {store : MemoryStore} {opened : Nat}
    {session : Session MemoryStore} (hopen : Session.open? config store opened = .ok session)
    (hstore : ∀ e ∈ store.outbound.entries, Headed config e.1 e.2)
    (fault : Option (Nat × String)) (start : Moment) (events : List (Event × Moment)) :
    let limit := config.maxMessageSize
    let task := ((ofSession session fault).begin start).run events
    ∃ opening calls, (∀ op ∈ opening, Begins start op) ∧ AskedBy events calls ∧
      let ops := opening ++ calls.flatten
      task.session = (session.run ops).2 ∧
      task.written = taken fault (session.produced ops) ∧
      (∀ before after type fields now frame, ops = before ++ .send type fields now :: after →
        ((session.run before).2.step (.send type fields now)).1 = .sent (.ok frame) →
        frame ∈ session.produced ops ∧ (Wire.fieldBytes fields).length < frame.length) ∧
      ((∀ e ∈ task.session.store.outbound.entries, e.2.length + Resend.growth ≤ limit) →
        (Utf8.bytes config.beginString).length + fillRoom ≤ limit →
        ∀ frame ∈ task.written, frame.length ≤ limit) ∧
      ∀ chunks, chunks.flatten = task.written.flatten →
        (Framing.feed limit .start chunks).frames = task.written.takeWhile (Framing.fits limit) ∧
        ((Framing.feed limit .start chunks).stop = none ↔
          ∀ frame ∈ task.written, Framing.fits limit frame = true) := by
  intro limit task
  obtain ⟨opening, calls, hopening, hcalls, hconcludes⟩ :=
    begun_concludes session fault start events
  have hwritten (frame : Bytes) (hframe : frame ∈ task.written) :
      frame ∈ session.produced (opening ++ calls.flatten) := by
    rw [hconcludes.written_eq] at hframe
    exact (isPrefix_taken fault _).subset hframe
  refine ⟨opening, calls, hopening, hcalls, hconcludes.session_eq, hconcludes.written_eq, ?_, ?_, ?_⟩
  · intro before after type fields now frame hops hsent
    refine ⟨?_, Session.lt_length_of_send hsent⟩
    rw [hops, Session.produced_append, Session.produced_cons, hsent]
    exact List.mem_append_right _ (List.mem_append_left _ (List.mem_singleton_self _))
  · intro hkept hfill frame hframe
    have hsized := Session.sized_of_mem_produced hopen (hwritten frame hframe) hstore
    rw [← hconcludes.session_eq] at hsized
    exact hsized.length_le hkept hfill
  · intro chunks hchunks
    exact Framing.feed_encoded
      (fun frame hframe => Session.encoded_of_mem_produced hopen (hwritten frame hframe)) hchunks

/-- An acceptor with a limit of 256 bytes logs on and sends a text of 256 bytes. The send is accepted
and the task goes on, but the counterparty reads the logon only. -/
theorem run_writes_unlimited_overlong :
    let config := { Sample.acceptor with maxMessageSize := 256 }
    let session : Session MemoryStore := .fresh config .empty 0
    let events := [(.received (Sample.logon Sample.initiator), Sample.moment),
      (.send .newOrderSingle [⟨.text, List.replicate 256 120⟩], Sample.moment)]
    let task := ((ofSession session none).begin Sample.moment).run events
    Session.open? config MemoryStore.empty 0 = .ok session ∧
      (∀ e ∈ MemoryStore.empty.outbound.entries, Headed config e.1 e.2) ∧
      task.isRunning = true ∧ task.written.map List.length = [79, 328] ∧
      ∀ chunks, chunks.flatten = task.written.flatten →
        (Framing.feed 256 .start chunks).frames = task.written.take 1 ∧
        (Framing.feed 256 .start chunks).stop ≠ none := by
  intro config session events task
  have hopen : Session.open? config MemoryStore.empty 0 = .ok session :=
    Session.open?_eq_ok_iff.mpr ⟨eq_ok_of_toOption (by decide +kernel), rfl⟩
  have hstore : ∀ e ∈ MemoryStore.empty.outbound.entries, Headed config e.1 e.2 := nofun
  have hruns : task.isRunning = true ∧ task.written.map List.length = [79, 328] := by
    decide +kernel
  have hfits : task.written.takeWhile (Framing.fits 256) = task.written.take 1 ∧
      task.written.all (Framing.fits 256) = false := by
    decide +kernel
  obtain ⟨_, _, _, _, _, _, _, _, hread⟩ :=
    run_writes_unlimited hopen hstore none Sample.moment events
  refine ⟨hopen, hstore, hruns.1, hruns.2, fun chunks hchunks => ?_⟩
  obtain ⟨hframes, hstop⟩ := hread chunks hchunks
  refine ⟨hframes.trans hfits.1, fun hnone => ?_⟩
  exact absurd (List.all_eq_true.mpr (hstop.mp hnone)) (Bool.eq_false_iff.mp hfits.2)

/-- A message that the limit allows may be over it when it is sent again. -/
example :
    let events := [(.received (Sample.logon Sample.initiator), Sample.moment),
      (.send .newOrderSingle [⟨.text, List.replicate 160 120⟩], Sample.moment),
      (.received (Sample.frame Sample.initiator .resendRequest 2
        [.ofNat .beginSeqNo 2, .ofNat .endSeqNo 2]), Sample.moment)]
    (((ofSession (.fresh { Sample.acceptor with maxMessageSize := 256 } MemoryStore.empty 0)
      none).begin Sample.moment).run events).written.map List.length = [79, 232, 263] := by
  decide +kernel

end FixProtocol.SessionTask
