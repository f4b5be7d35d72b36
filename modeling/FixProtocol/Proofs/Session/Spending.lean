import FixProtocol.Proofs.Engine.Output

/-!
# The end of the numbers

The outbound counter only moves by one, so it cannot pass over the end of the range unseen: the
frames that a session numbers carry every number from its first one on, up to and including the
greatest word. That word is one too many, since no counterparty takes a message under it. After it
the counter stands at zero, which the store refuses, so nothing new follows.

- `Session.Spent.isValid_iff`: all numbers that were used are ones that messages have, until all
  words are used up.
- `Session.Spent.of_prefix`: what was numbered on the way comes first in what was numbered at last.
- `Session.run_spends`: what this means for every run, whatever the store starts with.
-/

namespace FixProtocol.Session

variable {s t : Session MemoryStore} {written : List (SeqNum × Bytes)}

/-! ## Which numbers are used -/

/-- The numbers that were used ascend. -/
theorem Spent.ascending (h : Spent s t written) : (written.map Prod.fst).Pairwise (· < ·) := by
  have hnumbers : ((written.map Prod.fst).map UInt64.toNat).Pairwise (· < ·) := by
    have hmap : (written.map Prod.fst).map UInt64.toNat = written.map (·.1.toNat) := List.map_map
    rw [hmap, h.numbers]
    exact List.pairwise_lt_range'
  exact (List.pairwise_map.mp hnumbers).imp UInt64.lt_iff_toNat_lt.mpr

/-- Each of them is the number of the session then, some way after its first. -/
theorem Spent.bounds (h : Spent s t written) {e : SeqNum × Bytes} (he : e ∈ written) :
    s.sequences.nextOutgoing.toNat ≤ e.1.toNat ∧
      e.1.toNat < s.sequences.nextOutgoing.toNat + written.length := by
  have hmem : e.1.toNat ∈ written.map (·.1.toNat) := List.mem_map_of_mem he
  rwa [h.numbers, List.mem_range'_1] at hmem

section
variable (hfirst : .first ≤ s.sequences.nextOutgoing)
include hfirst

/-- Only the greatest word is no number that messages have. -/
theorem Spent.isValid_or_top (h : Spent s t written) :
    ∀ e ∈ written, e.1.isValid = true ∨ e.1 = .top := by
  intro e he
  by_cases htop : e.1 = .top
  · exact .inr htop
  · refine .inl (SeqNum.isValid_iff.mpr ⟨?_, SeqNum.lt_top_of_ne htop⟩)
    exact UInt64.le_trans hfirst (UInt64.le_iff_toNat_le.mpr (h.bounds he).1)

/-- All numbers that were used are ones that messages have, until all words are used up. -/
theorem Spent.isValid_iff (h : Spent s t written) :
    (∀ e ∈ written, e.1.isValid = true) ↔
      s.sequences.nextOutgoing.toNat + written.length < 2 ^ 64 := by
  constructor
  · intro hvalid
    rw [← h.toNat_next fun e he => SeqNum.ne_top_of_isValid (hvalid e he)]
    exact t.sequences.nextOutgoing.toNat_lt
  · intro hroom e he
    refine (h.isValid_or_top hfirst e he).resolve_right fun htop => ?_
    have hbelow := (h.bounds he).2
    have hlast : e.1.toNat = 2 ^ 64 - 1 := by
      rw [htop]
      rfl
    omega

end

/-- After the greatest word the counter stands at zero. -/
theorem Spent.next_eq_zero (h : Spent s t written)
    (hfull : s.sequences.nextOutgoing.toNat + written.length = 2 ^ 64) :
    t.sequences.nextOutgoing = 0 := by
  refine UInt64.toNat_inj.mp ?_
  rw [h.next, hfull]
  rfl

/-! ## On the way -/

/-- What was numbered on the way comes first in what was numbered at last. -/
theorem Spent.of_prefix (hs : Steady s) {before ops : List Operation} (hbefore : before <+: ops)
    (h : Spent s (s.run ops).2 written) :
    ∃ first, first <+: written ∧ Spent s (s.run before).2 first := by
  obtain ⟨after, rfl⟩ := hbefore
  rw [run_append] at h
  obtain ⟨first, hfirst, _⟩ := spent_run hs before
  obtain ⟨rest, hrest, _⟩ := spent_run (hs.run before) after
  refine ⟨first, ⟨rest, ?_⟩, hfirst⟩
  have hentries := h.entries
  rw [(hfirst.trans hrest).entries] at hentries
  exact List.append_cancel_left hentries

/-- As long as not all words are used up, the counter has never fallen. -/
theorem Spent.never_falls (hs : Steady s) {ops : List Operation}
    (h : Spent s (s.run ops).2 written)
    (hroom : s.sequences.nextOutgoing.toNat + written.length < 2 ^ 64)
    {before after : List Operation} (hbefore : before <+: after) (hafter : after <+: ops) :
    (s.run before).2.sequences.nextOutgoing ≤ (s.run after).2.sequences.nextOutgoing := by
  obtain ⟨more, hmore, hspent⟩ := h.of_prefix hs hafter
  obtain ⟨first, hfirst, hspent'⟩ := hspent.of_prefix hs hbefore
  have hmore := hmore.length_le
  have hfirst := hfirst.length_le
  refine UInt64.le_iff_toNat_le.mpr ?_
  rw [hspent.next, hspent'.next, Nat.mod_eq_of_lt (by omega), Nat.mod_eq_of_lt (by omega)]
  omega

/-! ## Runs -/

/-- For every store, whatever its counters and messages, and every run of a session over it. The new
frames that are put out are, in this order, what the session numbered; a reaction that failed has
numbered more than it put out. Their numbers ascend, and each is one that messages have, but for the
greatest word. The counter has not fallen in the run exactly if that word was not used, which is so
as long as there were fewer messages than words left. Once it was used, the counter stands at zero
and no new frame is put out any more. -/
theorem run_spends {config : SessionConfig} {store : MemoryStore} {opened : Nat}
    {s₀ : Session MemoryStore} (h : open? config store opened = .ok s₀) (ops : List Operation) :
    ∃ written : List (SeqNum × Bytes),
      (s₀.run ops).2.store.outbound.entries = store.outbound.entries ++ written ∧
      (s₀.produced ops).filter isFresh <+: written.map Prod.snd ∧
      (∀ e ∈ written, Numbered e.1 e.2) ∧
      (written.map Prod.fst).Pairwise (· < ·) ∧
      (∀ e ∈ written, e.1.isValid = true ∨ e.1 = .top) ∧
      ((∀ e ∈ written, e.1.isValid = true) ↔
        s₀.sequences.nextOutgoing.toNat + written.length < 2 ^ 64) ∧
      ((∀ e ∈ written, e.1.isValid = true) ↔
        ∀ before after, before <+: after → after <+: ops →
          (s₀.run before).2.sequences.nextOutgoing ≤ (s₀.run after).2.sequences.nextOutgoing) ∧
      ((∃ e ∈ written, e.1 = .top) →
        (s₀.run ops).2.sequences.nextOutgoing = 0 ∧
        ∀ more, (s₀.produced (ops ++ more)).filter isFresh =
          (s₀.produced ops).filter isFresh) := by
  have hs : Steady s₀ := steady_of_open h
  have hstart : s₀.store = store ∧ .first ≤ s₀.sequences.nextOutgoing := by
    obtain ⟨_, rfl⟩ := open?_eq_ok_iff.mp h
    exact ⟨rfl, SeqNum.le_max_right _ _⟩
  obtain ⟨rfl, hfirst⟩ := hstart
  obtain ⟨written, hspent, hprefix⟩ := spent_run hs ops
  have hvalid := hspent.isValid_iff hfirst
  refine ⟨written, hspent.entries, hprefix, hspent.numbered, hspent.ascending,
    hspent.isValid_or_top hfirst, hvalid, hvalid.trans ⟨?_, ?_⟩, ?_⟩
  · intro hroom before after hbefore hafter
    exact hspent.never_falls hs hroom hbefore hafter
  · -- The counter starts above zero, so that it cannot be back at zero.
    intro hclimbs
    refine Nat.lt_of_le_of_ne hspent.bound fun hfull => ?_
    have hle := hclimbs [] ops List.nil_prefix List.prefix_rfl
    rw [hspent.next_eq_zero hfull] at hle
    exact absurd (UInt64.le_trans hfirst hle) (by decide)
  · rintro ⟨e, he, htop⟩
    have hfull : s₀.sequences.nextOutgoing.toNat + written.length = 2 ^ 64 := by
      refine Nat.le_antisymm hspent.bound (Nat.le_of_not_lt fun hroom => ?_)
      exact SeqNum.ne_top_of_isValid (hvalid.mpr hroom e he) htop
    have hzero := hspent.next_eq_zero hfull
    refine ⟨hzero, fun more => ?_⟩
    obtain ⟨written', hspent', hprefix'⟩ := spent_run (hs.run ops) more
    rw [hspent'.eq_nil hzero] at hprefix'
    rw [produced_append, List.filter_append, List.prefix_nil.mp hprefix', List.append_nil]

/-- An acceptor whose counter stands one below the greatest word logs on and is asked twice whether
it is there. The logon takes the greatest number, the first answer the word after it; the second
answer is refused. -/
theorem run_spends_exhausted :
    let store : MemoryStore := .startingAt .greatest .first
    let s₀ : Session MemoryStore := .fresh Sample.acceptor store 0
    let asked (n : SeqNum) (id : String) : Operation :=
      .receive (Sample.frame Sample.initiator .testRequest n [.ofText .testReqId id]) Sample.moment
    let ops : List Operation := [.receive (Sample.logon Sample.initiator) Sample.moment,
      asked 2 "T", asked 3 "U"]
    open? Sample.acceptor store 0 = .ok s₀ ∧
      (s₀.run ops).2.sequences.nextOutgoing = 0 ∧
      (s₀.produced ops).length = 2 ∧
      ∃ written : List (SeqNum × Bytes),
        (s₀.produced ops).filter isFresh <+: written.map Prod.snd ∧
        written.map Prod.fst = [.greatest, .top] ∧
        ¬ ∀ before after, before <+: after → after <+: ops →
          (s₀.run before).2.sequences.nextOutgoing ≤
            (s₀.run after).2.sequences.nextOutgoing := by
  intro store s₀ asked ops
  have hopen : open? Sample.acceptor store 0 = .ok s₀ :=
    open?_eq_ok_iff.mpr ⟨Sample.validate_acceptor, rfl⟩
  have hruns : (s₀.run ops).2.sequences.nextOutgoing = 0 ∧ (s₀.produced ops).length = 2 ∧
      (s₀.run ops).2.store.outbound.entries.map Prod.fst = [.greatest, .top] := by decide +kernel
  obtain ⟨written, hentries, hprefix, _, _, _, _, hclimbs, _⟩ := run_spends hopen ops
  have hnumbers : written.map Prod.fst = [.greatest, .top] := by
    rw [← hruns.2.2, hentries]
    rfl
  refine ⟨hopen, hruns.1, hruns.2.1, written, hprefix, hnumbers, fun hnever => ?_⟩
  obtain ⟨e, he, htop⟩ : ∃ e ∈ written, e.1 = .top :=
    List.mem_map.mp (hnumbers ▸ List.mem_cons_of_mem _ (List.mem_cons_self ..))
  exact SeqNum.ne_top_of_isValid (hclimbs.mpr hnever e he) htop

end FixProtocol.Session
