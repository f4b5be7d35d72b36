import FixProtocol.Json.Form

/-!
# Texts in JSON

A text that is printed as a JSON string is read back, whatever characters it holds. Each character
is written plain or as an escape, and is read as one piece. Only control characters are written as
16-bit units, and these are no halves of a pair.

- `Json.Piece.Reads`: a piece that some characters are read as.
- `Json.exists_reads_escape`: what one character is written as is read as one piece.
- `Json.parse?_quote`, `JsonForm.readText?_print_compId`: texts and names are read back.
-/

namespace FixProtocol

namespace Json

/-- The characters `written` stand for the character `c`, and are read as the piece `p`. -/
structure Piece.Reads (p : Piece) (written : List Char) (c : Char) : Prop where
  point_eq : p.point = c.toNat
  escaped : p.escaped = true → c.toNat < 32
  written_ne_nil : written ≠ []
  printable : ∀ d ∈ written, 32 ≤ d.toNat
  read : ∀ {fuel rest ps left}, pieces? fuel rest = some (ps, left) →
    pieces? (fuel + 1) (written ++ rest) = some (p :: ps, left)

/-- Four digits denote a number below 32. -/
theorem hex4?_digits {n : Nat} (h : n < 32) (rest : List Char) :
    hex4? ('0' :: '0' :: (if n < 16 then '0' else '1') :: Nat.digitChar (n % 16) :: rest) =
      some (n, rest) := by
  have hhigh : ∀ n < 32, hexValue? (if n < 16 then '0' else '1') = some (n / 16) := by decide
  have hlow : ∀ d < 16, hexValue? (Nat.digitChar d) = some d := by decide
  have hzero : hexValue? '0' = some 0 := by decide
  simp only [hex4?, hzero, hhigh n h, hlow (n % 16) (Nat.mod_lt n (by decide)), Option.bind_eq_bind,
    Option.bind_some]
  refine congrArg (fun m => some (m, rest)) ?_
  omega

/-- An escape of one letter. -/
theorem Piece.exists_reads_short {written : String} {c : Char} (e : Char)
    (hwritten : written.toList = ['\\', e]) (he : e ≠ 'u') (hprintable : 32 ≤ e.toNat)
    (hshort : shortEscape? e = some c.toNat) : ∃ p : Piece, p.Reads written.toList c := by
  refine ⟨⟨c.toNat, false⟩, rfl, nofun, ?_, ?_, ?_⟩
  · rw [hwritten]
    exact nofun
  · intro d hd
    rw [hwritten] at hd
    rcases List.mem_cons.mp hd with rfl | hd
    · decide
    · rw [List.mem_singleton.mp hd]
      exact hprintable
  · intro fuel rest ps left h
    rw [hwritten]
    simp [pieces?, hshort, h]

/-- A control character as four hexadecimal digits. -/
theorem Piece.exists_reads_unit {written : String} {c : Char} (h : c.toNat < 32)
    (hwritten : written.toList =
      ['\\', 'u', '0', '0', if c.toNat < 16 then '0' else '1', Nat.digitChar (c.toNat % 16)]) :
    ∃ p : Piece, p.Reads written.toList c := by
  refine ⟨⟨c.toNat, true⟩, rfl, fun _ => h, ?_, ?_, ?_⟩
  · rw [hwritten]
    exact nofun
  · intro d hd
    have hdigit : ∀ r < 16, 32 ≤ (Nat.digitChar r).toNat := by decide
    rw [hwritten] at hd
    simp only [List.mem_cons, List.not_mem_nil, or_false] at hd
    rcases hd with rfl | rfl | rfl | rfl | rfl | rfl
    iterate 4 decide
    · split <;> decide
    · exact hdigit _ (Nat.mod_lt _ (by decide))
  · intro fuel rest ps left hrest
    rw [hwritten]
    simp [pieces?, hex4?_digits h, hrest]

/-- A character that needs no escape. -/
theorem Piece.exists_reads_plain {written : String} {c : Char} (hwritten : written.toList = [c])
    (hquote : c ≠ '"') (hback : c ≠ '\\') (h : 32 ≤ c.toNat) :
    ∃ p : Piece, p.Reads written.toList c := by
  refine ⟨⟨c.toNat, false⟩, rfl, nofun, ?_, ?_, ?_⟩
  · rw [hwritten]
    exact nofun
  · intro d hd
    rw [hwritten, List.mem_singleton] at hd
    exact hd ▸ h
  · intro fuel rest ps left hrest
    rw [hwritten]
    simp [pieces?, hback, hrest]

/-- Whatever a character is, what it is written as is read as one piece. -/
theorem exists_reads_escape (c : Char) : ∃ p : Piece, p.Reads (escape c).toList c := by
  have hshort (e d : Char) {written : String} (hwritten : written.toList = ['\\', e])
      (hd : e ≠ 'u' ∧ 32 ≤ e.toNat ∧ shortEscape? e = some d.toNat) :
      ∃ p : Piece, p.Reads written.toList d :=
    Piece.exists_reads_short e hwritten hd.1 hd.2.1 hd.2.2
  unfold escape
  split
  · next h => exact h ▸ hshort '"' '"' (by decide) (by decide)
  · next hquote =>
    split
    · next h => exact h ▸ hshort '\\' '\\' (by decide) (by decide)
    · next hback =>
      split
      · next h => exact h ▸ hshort 'b' '\x08' (by decide) (by decide)
      split
      · next h => exact h ▸ hshort 't' '\t' (by decide) (by decide)
      split
      · next h => exact h ▸ hshort 'n' '\n' (by decide) (by decide)
      split
      · next h => exact h ▸ hshort 'f' '\x0c' (by decide) (by decide)
      split
      · next h => exact h ▸ hshort 'r' '\r' (by decide) (by decide)
      split
      · next h =>
        refine Piece.exists_reads_unit h ?_
        simp only [String.toList_append, Char.toString, String.toList_singleton]
        split <;> rfl
      · next h =>
        exact Piece.exists_reads_plain (String.toList_singleton ..) hquote hback (by omega)

/-- What a text is written as between the quotes. -/
def escapes (cs : List Char) : List Char :=
  cs.flatMap fun c => (escape c).toList

theorem escapes_cons (c : Char) (cs : List Char) :
    escapes (c :: cs) = (escape c).toList ++ escapes cs :=
  List.flatMap_cons

/-- The characters of a text are read as one piece each, up to the closing quote. -/
theorem exists_pieces (cs : List Char) (rest : List Char) :
    ∃ ps : List Piece, ps.map Piece.point = cs.map Char.toNat ∧
      (∀ p ∈ ps, p.escaped = true → p.point < 32) ∧
      ∀ fuel, (escapes cs).length < fuel →
        pieces? fuel (escapes cs ++ '"' :: rest) = some (ps, rest) := by
  induction cs with
  | nil =>
    refine ⟨[], rfl, nofun, fun fuel hfuel => ?_⟩
    obtain ⟨fuel, rfl⟩ := Nat.exists_eq_succ_of_ne_zero (Nat.ne_of_gt hfuel)
    rfl
  | cons c cs ih =>
    obtain ⟨ps, hpoints, hescaped, hread⟩ := ih
    obtain ⟨p, hp⟩ := exists_reads_escape c
    refine ⟨p :: ps, ?_, ?_, fun fuel hfuel => ?_⟩
    · rw [List.map_cons, List.map_cons, hp.point_eq, hpoints]
    · refine List.forall_mem_cons.mpr ⟨fun h => ?_, hescaped⟩
      rw [hp.point_eq]
      exact hp.escaped h
    · have hwritten := List.length_pos_iff.mpr hp.written_ne_nil
      rw [escapes_cons, List.length_append] at hfuel
      obtain ⟨fuel, rfl⟩ := Nat.exists_eq_succ_of_ne_zero (n := fuel) (by omega)
      rw [escapes_cons, List.append_assoc]
      exact hp.read (hread fuel (by omega))

theorem printable_escapes (cs : List Char) :
    ∀ d ∈ escapes cs, 32 ≤ d.toNat := by
  intro d hd
  obtain ⟨c, -, hd⟩ := List.mem_flatMap.mp hd
  obtain ⟨p, hp⟩ := exists_reads_escape c
  exact hp.printable d hd

/-- Units that are no halves of pairs stand for themselves. -/
theorem joinPairs_of_lt {ps : List Piece} (h : ∀ p ∈ ps, p.escaped = true → p.point < 32) :
    joinPairs ps = ps.map Piece.point := by
  induction ps using joinPairs.induct with
  | case1 => rfl
  | case2 p => rfl
  | case3 p q rest hpair ih =>
    simp only [Bool.and_eq_true, decide_eq_true_eq] at hpair
    have hlow := h p List.mem_cons_self hpair.1.1.1.1.1
    omega
  | case4 p q rest hpair ih =>
    rw [joinPairs, if_neg hpair, ih fun r hr => h r (List.mem_cons_of_mem _ hr)]
    rfl

/-- The string that a text is printed as holds the text. -/
theorem string?_escapes (s : String) (rest : List Char) :
    string? (escapes s.toList ++ '"' :: rest) = some (.ofText s, rest) := by
  obtain ⟨ps, hpoints, hescaped, hread⟩ := exists_pieces s.toList rest
  have hprintable := printable_escapes s.toList
  generalize escapes s.toList = written at hread hprintable
  have hfuel : written.length < (written ++ '"' :: rest).length + 1 := by
    rw [List.length_append]
    omega
  have htake : (written ++ '"' :: rest).take ((written ++ '"' :: rest).length - rest.length) =
      written ++ ['"'] := by
    have hlength : (written ++ '"' :: rest).length - rest.length = (written ++ ['"']).length := by
      simp only [List.length_append, List.length_cons, List.length_nil]
      omega
    rw [hlength, List.append_cons written '"' rest]
    exact List.take_left
  have hraw : (written ++ ['"']).any (fun c => c.toNat < 32) = false := by
    rw [List.any_eq_false]
    intro d hd
    rw [decide_eq_true_eq, Nat.not_lt]
    rcases List.mem_append.mp hd with hd | hd
    · exact hprintable d hd
    · rw [List.mem_singleton.mp hd]
      decide
  unfold string?
  rw [hread _ hfuel]
  show some (JsonString.mk (joinPairs ps) _, rest) = _
  rw [htake, hraw, joinPairs_of_lt hescaped, hpoints]
  rfl

/-- A printed text is read back as a string that holds it. -/
theorem parse?_quote (s : String) : parse? (quote s) = some (.string (.ofText s)) := by
  have hquote : (quote s).toList = '"' :: (escapes s.toList ++ '"' :: []) := by
    simp only [quote, String.toList_append, String.toList_join, List.flatMap_map]
    rfl
  have hvalue (fuel : Nat) (cs : List Char) :
      value? (fuel + 1) ('"' :: cs) = (string? cs).map fun r => (.string r.1, r.2) := rfl
  unfold parse?
  simp only [hquote, hvalue, string?_escapes, Option.map_some]
  rfl

end Json

/-- The text that was put into a string is found in it. -/
theorem JsonString.text?_ofText (s : String) : (ofText s).text? = some s := by
  have hplain : (ofText s).points.any isSurrogate = false := by
    rw [List.any_eq_false]
    intro n hn
    obtain ⟨c, -, rfl⟩ := List.mem_map.mp hn
    have hvalid : c.toNat < 0xD800 ∨ 0xDFFF < c.toNat ∧ c.toNat < 0x110000 := c.valid
    simp only [isSurrogate, Bool.and_eq_true, decide_eq_true_eq]
    omega
  have hback : (ofText s).points.map Char.ofNat = s.toList := by
    rw [ofText, List.map_map]
    exact List.map_id'' (fun c => Char.ofNat_toNat c) _
  unfold text?
  rw [hplain, hback, String.ofList_toList]
  rfl

/-- A name that is printed is read back, whatever it holds. -/
theorem JsonForm.readText?_print_compId (id : CompId) :
    JsonForm.readText? CompId (JsonForm.print id) = some id := by
  have hparse : Json.parse? (JsonForm.print id) = some (.string (.ofText id.text)) :=
    Json.parse?_quote id.text
  rw [JsonForm.readText?, hparse, Option.bind_some]
  show (JsonString.text? _).bind _ = _
  rw [JsonString.text?_ofText, Option.bind_some]
  exact dif_pos id.fits

end FixProtocol
