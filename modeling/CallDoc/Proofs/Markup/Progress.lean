import CallDoc.Markup.Parse
import CallDoc.Proofs.Markup.Source

/-!
Reading comes to an end. Every block takes at least the line it starts on, so that the blocks of a
list of lines are finitely many, and what is read inside of a block has fewer characters than the
lines around it. A finished reading is a derivation of `Reads`, which knows of no bound; every list
of lines has one, and its result is that of `Block.ofLines`.
-/
namespace CallDoc

open Text

namespace Line

/-- The number of characters in the lines. -/
def characters (lines : List Line) : Nat := (lines.flatMap text).length

theorem characters_eq_size (lines : List Line) : characters lines = size 0 lines := by
  induction lines with
  | nil => rfl
  | cons line lines ih =>
    rw [characters, List.flatMap_cons, List.length_append, ← characters, ih, size_cons,
      Nat.add_zero]

end Line

namespace Frame

variable {lines : List Line} {i : Nat}

/-- The lines after a block are those from a later place on. -/
theorem exists_drop_of_first (hi : i < lines.length) :
    ∃ j, i < j ∧ j ≤ lines.length ∧
      (first lines[i] (lines.drop (i + 1))).2 = lines.drop j := by
  obtain ⟨taken, htaken⟩ := first_suffix lines[i] (lines.drop (i + 1))
  have hlength := congrArg List.length htaken
  rw [List.length_append, List.length_drop] at hlength
  refine ⟨i + 1 + taken.length, by omega, by omega, ?_⟩
  calc (first lines[i] (lines.drop (i + 1))).2
      = (taken ++ (first lines[i] (lines.drop (i + 1))).2).drop taken.length :=
        List.drop_left.symm
    _ = (lines.drop (i + 1)).drop taken.length := by rw [htaken]
    _ = lines.drop (i + 1 + taken.length) := List.drop_drop

theorem characters_lt_of_first (hi : i < lines.length) (hline : lines[i].isBlank = false) :
    ∀ frame ∈ (first lines[i] (lines.drop (i + 1))).1, ∀ body ∈ frame.bodies,
      Line.characters body < Line.characters lines := by
  intro frame hframe body hbody
  rw [Line.characters_eq_size, Line.characters_eq_size]
  have hbelow := Line.size_le_of_sublist 0 (List.drop_sublist i lines)
  rw [List.drop_eq_getElem_cons hi] at hbelow
  exact Nat.lt_of_lt_of_le (first_size 0 _ hline frame hframe body hbody) hbelow

end Frame

namespace Block

variable {roles : List Text}

/-- A finished reading of some lines, with its result: the blank lines are skipped, and at every
other line the bodies of a block are read before the lines after it. -/
inductive Reads (roles : List Text) : List Line → Except Error (List Block) → Prop
  | done : Reads roles [] (.ok [])
  | blank {line below result} (hline : line.isBlank = true) (hrest : Reads roles below result) :
      Reads roles (line :: below) result
  | block {line below read result} (hline : line.isBlank = false)
      (hbodies : ∀ frame ∈ (Frame.first line below).1, ∀ body ∈ frame.bodies,
        Reads roles body (read body))
      (hrest : Reads roles (Frame.first line below).2 result) :
      Reads roles (line :: below) (do
        let blocks ← (Frame.first line below).1.mapM (Frame.toBlock roles read)
        let rest ← result
        return blocks ++ rest)

theorem ofLines_nil : ofLines roles [] = .ok [] := by
  rw [ofLines_eq, Frame.cut]
  rfl

theorem ofLines_blank {line : Line} (hline : line.isBlank = true) (below : List Line) :
    ofLines roles (line :: below) = ofLines roles below := by
  rw [ofLines_eq, Frame.cut, if_pos hline, ← ofLines_eq]

theorem ofLines_block {line : Line} (hline : line.isBlank = false) (below : List Line) :
    ofLines roles (line :: below) = (do
      let blocks ← (Frame.first line below).1.mapM (Frame.toBlock roles (ofLines roles))
      let rest ← ofLines roles (Frame.first line below).2
      return blocks ++ rest) := by
  rw [ofLines_eq, Frame.cut, if_neg (by simp [hline]), List.mapM_append, ← ofLines_eq]

/-- By induction on the weight, which counts lines and characters. -/
theorem reads_ofLines (roles : List Text) (lines : List Line) :
    Reads roles lines (ofLines roles lines) := by
  induction hweight : Line.weight lines using Nat.strongRecOn generalizing lines with
  | ind weight ih =>
    cases lines with
    | nil =>
      rw [ofLines_nil]
      exact .done
    | cons line below =>
      have hbelow : Line.weight below < weight := by
        rw [← hweight, Line.weight, Line.weight, Line.size_cons]
        omega
      cases hline : line.isBlank with
      | true =>
        rw [ofLines_blank hline]
        exact .blank hline (ih _ hbelow _ rfl)
      | false =>
        have hrest := Line.size_le_of_sublist 1 (Frame.first_sublist line below)
        rw [ofLines_block hline]
        refine .block hline (fun frame hframe body hbody => ?_) (ih _ ?_ _ rfl)
        · exact ih _ (hweight ▸ Frame.first_size 1 below hline frame hframe body hbody) _ rfl
        · exact Nat.lt_of_le_of_lt hrest hbelow

theorem reads_iff {lines : List Line} {result : Except Error (List Block)} :
    Reads roles lines result ↔ result = ofLines roles lines := by
  refine ⟨fun h => ?_, fun h => h ▸ reads_ofLines roles lines⟩
  induction h with
  | done => exact ofLines_nil.symm
  | blank hline _ ih => rw [ofLines_blank hline, ih]
  | block hline _ _ hbodies hrest =>
    rw [ofLines_block hline, ← hrest]
    rw [mapM_congr fun frame hframe => Frame.toBlock_congr (hbodies frame hframe)]

/-- Every block takes lines, every body in it has fewer characters than the lines it is cut from,
and so every text is read to its end, in one way. -/
theorem parse_progress (roles : List Text) :
    (∀ (lines : List Line) (i : Nat) (hi : i < lines.length), lines[i].isBlank = false →
      (∃ j, i < j ∧ j ≤ lines.length ∧
        (Frame.first lines[i] (lines.drop (i + 1))).2 = lines.drop j) ∧
      ∀ frame ∈ (Frame.first lines[i] (lines.drop (i + 1))).1, ∀ body ∈ frame.bodies,
        Line.characters body < Line.characters lines) ∧
    ∀ t result, Reads roles (Line.ofText t) result ↔ result = parse roles t :=
  ⟨fun _ _ hi hline =>
    ⟨Frame.exists_drop_of_first hi, Frame.characters_lt_of_first hi hline⟩, fun _ _ => reads_iff⟩

/-- An item of two lines, between a blank line and a paragraph. -/
theorem parse_progress_item :
    ∃ (lines : List Line) (hi : 1 < lines.length),
      (lines = Line.ofText "\n- a\n  b\nc".toList ∧ lines[1].isBlank = false) ∧
      (∃ j, 1 < j ∧ j ≤ lines.length ∧ lines.drop j = [⟨3, ['c']⟩]) ∧
      Line.characters [⟨1, ['a']⟩, ⟨2, ['b']⟩] < Line.characters lines ∧
      ∃ result, Reads [] (Line.ofText "\n- a\n  b\nc".toList) result := by
  refine ⟨[⟨0, []⟩, ⟨1, "- a".toList⟩, ⟨2, "  b".toList⟩, ⟨3, ['c']⟩], by decide,
    ⟨by decide, by decide⟩, ?_⟩
  obtain ⟨⟨j, hlow, hhigh, hrest⟩, hbodies⟩ := (parse_progress []).1
    [⟨0, []⟩, ⟨1, "- a".toList⟩, ⟨2, "  b".toList⟩, ⟨3, ['c']⟩] 1 (by decide) (by decide)
  have hafter : (Frame.first ⟨1, "- a".toList⟩ [⟨2, "  b".toList⟩, ⟨3, ['c']⟩]).2 =
      [⟨3, ['c']⟩] := by decide +kernel
  have hitem : [⟨1, ['a']⟩, ⟨2, ['b']⟩] ∈
      (Frame.first ⟨1, "- a".toList⟩ [⟨2, "  b".toList⟩, ⟨3, ['c']⟩]).1.flatMap Frame.bodies := by
    decide +kernel
  obtain ⟨frame, hframe, hbody⟩ := List.mem_flatMap.1 hitem
  exact ⟨⟨j, hlow, hhigh, hrest.symm.trans hafter⟩, hbodies frame hframe _ hbody, _,
    ((parse_progress []).2 _ _).2 rfl⟩

end Block
end CallDoc
