import CallDoc.Margin
import CallDoc.Proofs.Margin
import CallDoc.Proofs.Text.Lines

/-!
Text in which no display mark can begin, since it has no escape in it. A part of such a text is
another one, and so is what is put together of them.
-/
namespace CallDoc

open Text

namespace Text

/-- The text has no escape, the first character of every display mark. -/
def Unmarked (t : Text) : Prop := '\x1b' ∉ t

instance (t : Text) : Decidable (Unmarked t) := inferInstanceAs (Decidable ('\x1b' ∉ t))

/-- No line has an escape. -/
def UnmarkedLines (lines : List Text) : Prop := ∀ line ∈ lines, Unmarked line

instance (lines : List Text) : Decidable (UnmarkedLines lines) :=
  inferInstanceAs (Decidable (∀ line ∈ lines, Unmarked line))

section Unmarked

variable {s t u : Text}

@[simp] theorem unmarked_nil : Unmarked [] := List.not_mem_nil

@[simp] theorem unmarked_cons {c : Char} : Unmarked (c :: t) ↔ c ≠ '\x1b' ∧ Unmarked t := by
  rw [Unmarked, List.mem_cons, not_or, Unmarked, ne_comm]

@[simp] theorem unmarked_append : Unmarked (t ++ u) ↔ Unmarked t ∧ Unmarked u := by
  rw [Unmarked, List.mem_append, not_or, Unmarked, Unmarked]

@[simp] theorem unmarked_spaces (n : Nat) : Unmarked (spaces n) := not_mem_spaces (by decide) n

theorem Unmarked.of_subset (h : Unmarked t) (hs : s ⊆ t) : Unmarked s := fun hmem => h (hs hmem)

theorem Unmarked.trimStart (h : Unmarked t) : Unmarked (trimStart t) :=
  h.of_subset (List.dropWhile_sublist _).subset

theorem Unmarked.trimEnd (h : Unmarked t) : Unmarked (trimEnd t) :=
  h.of_subset (dropEndWhile_sublist _ _).subset

theorem Unmarked.trim (h : Unmarked t) : Unmarked (trim t) := h.trimEnd.trimStart

theorem Unmarked.drop (h : Unmarked t) (n : Nat) : Unmarked (t.drop n) :=
  h.of_subset (List.drop_subset n t)

theorem Unmarked.take (h : Unmarked t) (n : Nat) : Unmarked (t.take n) :=
  h.of_subset (List.take_subset n t)

theorem Unmarked.takeWhile (h : Unmarked t) (p : Char → Bool) : Unmarked (t.takeWhile p) :=
  h.of_subset (List.takeWhile_sublist p).subset

theorem Unmarked.dropWhile (h : Unmarked t) (p : Char → Bool) : Unmarked (t.dropWhile p) :=
  h.of_subset (List.dropWhile_sublist p).subset

theorem Unmarked.of_before? {tail : Text} (h : Unmarked t) (ht : before? tail t = some u) :
    Unmarked u := by
  rw [before?_eq_some_iff.1 ht, unmarked_append] at h
  exact h.1

theorem Unmarked.of_after? {lead : Text} (h : Unmarked t) (ht : after? lead t = some u) :
    Unmarked u := by
  rw [after?_eq_some_iff.1 ht, unmarked_append] at h
  exact h.2

theorem Unmarked.of_splitFirst? {sep : Char} (h : Unmarked t)
    (ht : splitFirst? sep t = some (s, u)) : Unmarked s ∧ Unmarked u := by
  rw [splitFirst?_eq ht, unmarked_append, unmarked_cons] at h
  exact ⟨h.1, h.2.2⟩

theorem Unmarked.of_splitLast? {sep : Char} (h : Unmarked t)
    (ht : splitLast? sep t = some (s, u)) : Unmarked s ∧ Unmarked u := by
  rw [splitLast?_eq ht, unmarked_append, unmarked_cons] at h
  exact ⟨h.1, h.2.2⟩

theorem Unmarked.splitOn (h : Unmarked t) (sep : Char) : UnmarkedLines (splitOn sep t) :=
  fun _ hpiece => h.of_subset (of_mem_splitOn hpiece).2

theorem Unmarked.words (h : Unmarked t) : UnmarkedLines (words t) := by
  induction t with
  | nil => exact nofun
  | cons c t ih =>
    obtain ⟨hc, ht⟩ := unmarked_cons.1 h
    have hchar : Unmarked [c] := unmarked_cons.2 ⟨hc, unmarked_nil⟩
    have hmore := ih ht
    rw [Text.words]
    split
    · exact hmore
    · split
      · exact List.forall_mem_cons.2 ⟨hchar, hmore⟩
      · cases hwords : Text.words t with
        | nil => exact List.forall_mem_singleton.2 hchar
        | cons word more =>
          rw [hwords] at hmore
          obtain ⟨hword, hmore⟩ := List.forall_mem_cons.1 hmore
          exact List.forall_mem_cons.2 ⟨unmarked_cons.2 ⟨hc, hword⟩, hmore⟩

theorem Unmarked.joinWith {sep : Text} (hsep : Unmarked sep) {pieces : List Text}
    (h : UnmarkedLines pieces) : Unmarked (joinWith sep pieces) := by
  induction pieces with
  | nil => exact unmarked_nil
  | cons piece more ih =>
    obtain ⟨hpiece, hmore⟩ := List.forall_mem_cons.1 h
    cases more with
    | nil => rwa [Text.joinWith, List.intercalate_singleton]
    | cons next more =>
      rw [joinWith_cons_cons, unmarked_append, unmarked_append]
      exact ⟨hpiece, hsep, ih hmore⟩

end Unmarked

section UnmarkedLines

variable {lines more : List Text} {line : Text}

@[simp] theorem unmarkedLines_nil : UnmarkedLines [] := nofun

@[simp] theorem unmarkedLines_cons :
    UnmarkedLines (line :: lines) ↔ Unmarked line ∧ UnmarkedLines lines := List.forall_mem_cons

@[simp] theorem unmarkedLines_append :
    UnmarkedLines (lines ++ more) ↔ UnmarkedLines lines ∧ UnmarkedLines more :=
  List.forall_mem_append

theorem UnmarkedLines.of_subset (h : UnmarkedLines lines) (hs : more ⊆ lines) :
    UnmarkedLines more := fun line hline => h line (hs hline)

theorem UnmarkedLines.map {f : Text → Text} (h : UnmarkedLines lines)
    (hf : ∀ line, Unmarked line → Unmarked (f line)) : UnmarkedLines (lines.map f) :=
  List.forall_mem_map.2 fun line hline => hf line (h line hline)

theorem UnmarkedLines.dedent (h : UnmarkedLines lines) : UnmarkedLines (dedent lines) :=
  h.map fun _ hline => hline.drop _

theorem UnmarkedLines.pad (h : UnmarkedLines lines) (n : Nat) : UnmarkedLines (pad n lines) :=
  h.map fun _ hline => unmarked_append.2 ⟨unmarked_spaces n, hline⟩

theorem UnmarkedLines.stripEmpty (h : UnmarkedLines lines) : UnmarkedLines (stripEmpty lines) :=
  h.of_subset ((List.dropWhile_sublist _).trans (dropEndWhile_sublist _ _)).subset

theorem UnmarkedLines.unlines (h : UnmarkedLines lines) : Unmarked (unlines lines) :=
  Unmarked.joinWith (by decide) h

end UnmarkedLines

/-- The lines of a text are parts of it. -/
theorem Unmarked.trimmedLines {t : Text} (h : Unmarked t) : UnmarkedLines (trimmedLines t) := by
  refine UnmarkedLines.map (fun line hline => ?_) fun _ hline => hline.trimEnd
  obtain ⟨piece, hpiece, hpart⟩ := exists_prefix_of_mem_closeLines hline
  exact h.of_subset fun c hc => (of_mem_splitOn hpiece).2 c (hpart.subset hc)

end Text

theorem unmarked_cleanMargin {t : Text} (h : Unmarked t) : Unmarked (cleanMargin t) := by
  have hlines : UnmarkedLines (sourceLines t) := fun line hline hc =>
    (of_mem_sourceLines hline hc).elim (by decide) fun hc => h hc.1
  unfold cleanMargin
  split
  · exact unmarked_nil
  · rename_i line below hsource
    rw [hsource, unmarkedLines_cons] at hlines
    refine (UnmarkedLines.stripEmpty (unmarkedLines_cons.2 ⟨hlines.1.trimStart, ?_⟩)).unlines
    split
    · exact hlines.2
    · exact hlines.2.dedent

end CallDoc
