import CallDoc.Markup.Parse
import CallDoc.Proofs.Markup.Hanging

/-!
Lines with consecutive numbers: those of a text, and those of a body that is moved back to the
margin. Prose among them is one paragraph, with the number of its first line.
-/
namespace CallDoc

open Text

namespace Line

/-- The lines with the numbers from `n` on. -/
def numbered (n : Nat) : List Text → List Line
  | [] => []
  | t :: more => ⟨n, t⟩ :: numbered (n + 1) more

theorem numbered_append (n : Nat) (a b : List Text) :
    numbered n (a ++ b) = numbered n a ++ numbered (n + a.length) b := by
  induction a generalizing n with
  | nil => rfl
  | cons t a ih =>
    rw [List.cons_append, numbered, numbered, ih, List.length_cons, List.cons_append,
      Nat.add_assoc, Nat.add_comm 1]

theorem map_text_numbered (n : Nat) (ts : List Text) : (numbered n ts).map Line.text = ts := by
  induction ts generalizing n with
  | nil => rfl
  | cons t more ih => rw [numbered, List.map_cons, ih]

theorem text_mem_of_mem_numbered {n : Nat} {ts : List Text} {line : Line}
    (h : line ∈ numbered n ts) : line.text ∈ ts := by
  rw [← map_text_numbered n ts]
  exact List.mem_map_of_mem h

theorem ofText_eq_numbered (t : Text) : ofText t = numbered 0 (trimmedLines t) := by
  have hmap (ts : List Text) (n : Nat) :
      (ts.mapIdx fun i t => (⟨n + i, t⟩ : Line)) = numbered n ts := by
    induction ts generalizing n with
    | nil => rfl
    | cons t more ih =>
      rw [List.mapIdx_cons, numbered, ← ih (n + 1)]
      simp only [Nat.add_zero, Nat.add_assoc, Nat.add_comm 1]
  rw [← hmap, ofText]
  simp only [Nat.zero_add]

/-- A change of the texts leaves the numbers alone. -/
theorem map_numbered (f : Text → Text) (n : Nat) (ts : List Text) :
    (numbered n ts).map (fun line => { line with text := f line.text }) =
      numbered n (ts.map f) := by
  induction ts generalizing n with
  | nil => rfl
  | cons t more ih => rw [numbered, List.map_cons, ih, List.map_cons, numbered]

theorem dedent_numbered_pad {prose : List Text} (h : ∀ line ∈ prose, isProse line = true)
    (n k : Nat) : dedent (numbered n (Text.pad k prose)) = numbered n prose := by
  have htexts := dedent_pad h (map_text_numbered n (Text.pad k prose))
  have hmap (m : Nat) := map_numbered (fun t => trimEnd (t.drop m)) n (Text.pad k prose)
  rw [dedent, hmap, map_text_numbered] at htexts
  rw [dedent, hmap, htexts]

end Line

theorem Block.ofLines_numbered (roles : List Text) {prose : List Text} (h : IsProseLines prose)
    (n : Nat) :
    ofLines roles (Line.numbered n prose) = .ok [.paragraph n [.text (unlines prose)]] := by
  obtain ⟨line, more, rfl⟩ := List.exists_cons_of_ne_nil h.ne_nil
  have hblank : Line.isBlank ⟨n, line⟩ = false :=
    Line.isBlank_of_isProse (h.prose line List.mem_cons_self)
  have hfirst : Frame.first ⟨n, line⟩ (Line.numbered (n + 1) more ++ []) =
      ([.paragraph n (unlines (line :: more))], []) :=
    Frame.first_prose h (Line.map_text_numbered n (line :: more)) nofun
  rw [List.append_nil] at hfirst
  rw [ofLines_eq, Line.numbered, Frame.cut, if_neg (by simp [hblank]), hfirst, Frame.cut]
  change ((Inline.parse roles (unlines (line :: more))).map _).bind _ = _
  rw [Inline.parse_prose h]
  rfl

end CallDoc
