import CallDoc.Markup.Frame

/-!
What opens a block. The first line of a field or a directive is its header and the text behind
it, and every frame that starts at a line is cut in one of the ways of `Opens`.
-/
namespace CallDoc.Frame

open Text

/-! ## Headers -/

section Header

variable {t header rest name argument : Text}

theorem splitHeader?_eq {previous : Char} (h : splitHeader? previous t = some (header, rest)) :
    t = header ++ ':' :: rest := by
  induction t generalizing previous header with
  | nil => cases h
  | cons c t ih =>
    rw [splitHeader?] at h
    split at h
    · rename_i hc
      simp only [Bool.and_eq_true, decide_eq_true_eq] at hc
      obtain ⟨rfl, rfl⟩ := Prod.mk.inj (Option.some.inj h)
      rw [hc.1.1, List.nil_append]
    · obtain ⟨⟨u, v⟩, hu, he⟩ := Option.map_eq_some_iff.1 h
      obtain ⟨rfl, rfl⟩ := Prod.mk.inj he
      rw [ih hu, List.cons_append]

theorem fieldHeader?_eq (h : fieldHeader? t = some (header, rest)) :
    ∃ after, t = ':' :: (header ++ ':' :: after) ∧ rest = trimStart after := by
  unfold fieldHeader? at h
  split at h
  · split at h
    · cases h
    · split at h
      · rename_i u v hu
        split at h
        · cases h
        · obtain ⟨rfl, rfl⟩ := Prod.mk.inj (Option.some.inj h)
          exact ⟨v, by rw [splitHeader?_eq hu], rfl⟩
      · cases h
  · cases h

theorem splitDirective?_eq (h : splitDirective? t = some (name, argument)) :
    ∃ after, t = name ++ ("::".toList ++ after) ∧ argument = trim after := by
  induction t generalizing name with
  | nil => cases h
  | cons c t ih =>
    rw [splitDirective?] at h
    split at h
    · rename_i after hafter
      obtain ⟨rfl, rfl⟩ := Prod.mk.inj (Option.some.inj h)
      have ht := after?_eq_some_iff.1 (Option.filter_eq_some_iff.1 hafter).1
      exact ⟨after, ht.trans (List.nil_append _).symm, rfl⟩
    · split at h
      · obtain ⟨⟨u, v⟩, hu, he⟩ := Option.map_eq_some_iff.1 h
        obtain ⟨rfl, rfl⟩ := Prod.mk.inj he
        obtain ⟨after, ht, hargument⟩ := ih hu
        exact ⟨after, by rw [ht, List.cons_append], hargument⟩
      · cases h

theorem directive?_eq (h : directive? t = some (name, argument)) :
    ∃ after, t = name ++ ("::".toList ++ after) ∧ argument = trim after := by
  unfold directive? at h
  split at h
  · rename_i c u
    split at h
    · obtain ⟨⟨v, w⟩, hv, he⟩ := Option.map_eq_some_iff.1 h
      obtain ⟨rfl, rfl⟩ := Prod.mk.inj he
      obtain ⟨after, hu, hargument⟩ := splitDirective?_eq hv
      exact ⟨after, by rw [hu, List.cons_append], hargument⟩
    · cases h
  · cases h

theorem bullet?_eq {bullet : Char} (h : bullet? t = some bullet) :
    bullet = '*' ∨ bullet = '+' ∨ bullet = '-' := by
  unfold bullet? at h
  split at h
  · split at h
    · rename_i hc
      obtain rfl := Option.some.inj h
      exact hc.1
    · cases h
  · cases h

end Header

/-! ## Frames -/

/-- The lines of a paragraph that starts at `line`. -/
def run (line : Line) (below : List Line) : List Line :=
  line :: below.takeWhile fun line => !line.isBlank

/-- The text of a paragraph, with the colons that announce a literal block. -/
def prose (line : Line) (below : List Line) : Text :=
  unlines ((run line below).map fun line => trim line.text)

/-- How a frame is cut that starts at `line` or below it, where `rest` follows its lines. -/
inductive Opens (line : Line) (below : List Line) : List Line → Frame → Prop
  | quote : Opens line below (Line.hanging below).2
      (.quote line.number (Line.dedent (line :: (Line.hanging below).1)))
  | rubric {name argument} (h : directive? (trimStart (line.text.drop 2)) = some (name, argument)) :
      Opens line below (Line.hanging below).2 (.rubric line.number argument)
  | code {name argument} (h : directive? (trimStart (line.text.drop 2)) = some (name, argument)) :
      Opens line below (Line.hanging below).2
        (.literal line.number (Frame.code (Line.hanging below).1))
  | titled {name argument} (h : directive? (trimStart (line.text.drop 2)) = some (name, argument)) :
      Opens line below (Line.hanging below).2
        (.admonition line.number argument (Line.dedent (Line.hanging below).1))
  | admonition {name argument label}
      (h : directive? (trimStart (line.text.drop 2)) = some (name, argument))
      (hlabel : label = "see also".toList ∨ label ∈ admonitions) :
      Opens line below (Line.hanging below).2 (.admonition line.number label
        (Line.bodyBelow ⟨line.number, argument⟩ (Line.hanging below).1))
  | unknown : Opens line below (Line.hanging below).2 (.comment line.number line.text)
  | comment : Opens line below (Line.hanging below).2
      (.comment line.number (unlines ((line :: (Line.hanging below).1).map Line.text)))
  | field {header rest role type name} (h : fieldHeader? line.text = some (header, rest))
      (hread : readHeader? header = some (role, type, name)) :
      Opens line below (Line.hanging below).2 (.field line.number role name type
        (Line.bodyBelow ⟨line.number, rest⟩ (Line.hanging below).1))
  | bullets {bullet} (h : bullet? line.text = some bullet) :
      Opens line below (items (nextBullet? bullet) 1 (bulletOffset line.text) line below).2
        (.bullets line.number bullet
          (items (nextBullet? bullet) 1 (bulletOffset line.text) line below).1)
  | enumerated {marker sequence start}
      (h : enumerator? line.text below = some (marker, sequence, start)) :
      Opens line below
        (items (nextNumber? marker sequence start) 1 marker.textOffset line below).2
        (.enumerated line.number sequence marker.bracket start
          (items (nextNumber? marker sequence start) 1 marker.textOffset line below).1)
  | doctest : Opens line below (below.dropWhile fun line => !line.isBlank)
      (.doctest line.number (unlines ((run line below).map Line.text)))
  | paragraph {rest} :
      Opens line below rest (.paragraph line.number (announcesLiteral (prose line below)).1)
  | literal {next more} (h : (announcesLiteral (prose line below)).2 = true)
      (hnext : (below.dropWhile fun line => !line.isBlank).dropWhile Line.isBlank = next :: more) :
      Opens line below (Line.hanging more).2 (.literal next.number
        (unlines ((Line.dedent (next :: (Line.hanging more).1)).map Line.text)))

/-- The frames of the block that starts at `line`, where `rest` follows its lines. Only a paragraph
with a literal block behind it has two of them. -/
inductive Cuts (line : Line) (below : List Line) : List Frame → List Line → Prop
  | none {rest} : Cuts line below [] rest
  | one {frame rest} (h : Opens line below rest frame) : Cuts line below [frame] rest
  | announced {next more} (h : (announcesLiteral (prose line below)).2 = true)
      (hnext : (below.dropWhile fun line => !line.isBlank).dropWhile Line.isBlank = next :: more) :
      Cuts line below [.paragraph line.number (announcesLiteral (prose line below)).1,
        .literal next.number
          (unlines ((Line.dedent (next :: (Line.hanging more).1)).map Line.text))]
        (Line.hanging more).2

section Lines

variable (line : Line) (below : List Line)

theorem opens_ofExplicit :
    Opens line below (Line.hanging below).2 (ofExplicit line (Line.hanging below).1) := by
  unfold ofExplicit
  split
  · rename_i name argument h
    unfold ofDirective
    dsimp only
    split
    · exact .rubric h
    · split
      · exact .code h
      · split
        · exact .titled h
        · split
          · rename_i hname
            refine .admonition h ?_
            split
            · exact Or.inl rfl
            · exact Or.inr (List.contains_iff_mem.1 hname)
          · exact .unknown
  · exact .comment

theorem cuts_ofParagraph :
    Cuts line below (ofParagraph line below).1 (ofParagraph line below).2 := by
  have hprose (rest : List Line) : Cuts line below
      (if (announcesLiteral (prose line below)).1.isEmpty then []
        else [.paragraph line.number (announcesLiteral (prose line below)).1]) rest := by
    split
    · exact .none
    · exact .one .paragraph
  unfold ofParagraph
  dsimp only
  split
  · exact .one .doctest
  · split
    · rename_i hannounced
      split
      · rename_i next more hnext
        split
        · split
          · exact .one (.literal hannounced hnext)
          · exact .announced hannounced hnext
        · exact hprose _
      · exact hprose _
    · exact hprose _

theorem cuts_first : Cuts line below (first line below).1 (first line below).2 := by
  unfold first
  dsimp only
  split
  · exact .one .quote
  · split
    · exact .one (opens_ofExplicit line below)
    · split
      · rename_i header rest hheader
        split
        · rename_i hread
          exact .one (.field hheader hread)
        · exact .none
      · split
        · rename_i hbullet
          exact .one (.bullets hbullet)
        · split
          · rename_i henumerator
            exact .one (.enumerated henumerator)
          · exact cuts_ofParagraph line below

variable {line below} in
theorem Cuts.opens {frames : List Frame} {rest : List Line} (h : Cuts line below frames rest) :
    ∀ frame ∈ frames, Opens line below rest frame := by
  cases h with
  | none => exact List.forall_mem_nil _
  | one h => exact List.forall_mem_singleton.2 h
  | announced h hnext =>
    exact List.forall_mem_cons.2 ⟨.paragraph, List.forall_mem_singleton.2 (.literal h hnext)⟩

theorem opens_first : ∀ frame ∈ (first line below).1,
    Opens line below (first line below).2 frame :=
  (cuts_first line below).opens

end Lines

end CallDoc.Frame
