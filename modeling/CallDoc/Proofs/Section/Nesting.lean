import CallDoc.Proofs.Section.ItemLine
import CallDoc.Proofs.Section.Items
import CallDoc.Proofs.Text.Nesting

/-!
A section whose body is moved to the right as a whole is written as before. Nothing in the
body opens a section, since every line of it starts with a blank, and the places in it are
compared with each other only: the items are the same ones, and prose loses its margin.
-/
namespace CallDoc.Section

open Text

variable {m : Nat} {lines : List Text}

/-! ## The first line of an item -/

theorem splitLoneColon?_some_of_ne {c : Char} (h : c ≠ ':') (t : Text) :
    splitLoneColon? (some c) t = splitLoneColon? none t := by
  cases t with
  | nil => rw [splitLoneColon?, splitLoneColon?]
  | cons d t =>
    rw [splitLoneColon?, splitLoneColon?]
    simp [h]

/-- In front of the colon more text changes nothing, if it has no colon. -/
theorem splitLoneColon?_append_left {lead : Text} (h : ':' ∉ lead) (t : Text) :
    splitLoneColon? none (lead ++ t) =
      (splitLoneColon? none t).map fun (before, after) => (lead ++ before, after) := by
  induction lead with
  | nil => simp
  | cons c lead ih =>
    rw [List.mem_cons, not_or] at h
    have hc : c ≠ ':' := fun he => h.1 he.symm
    rw [List.cons_append, splitLoneColon?_cons_of_ne hc, splitLoneColon?_some_of_ne hc, ih h.2,
      Option.map_map]
    rfl

theorem partition_blank_append {lead : Text} (h : blank lead = true) (t : Text) :
    partition (lead ++ t) = partition t := by
  have hcolon : ':' ∉ lead := fun hmem =>
    absurd (List.all_eq_true.1 h ':' hmem) (by decide)
  rw [partition, splitLoneColon?_append_left hcolon, partition]
  cases splitLoneColon? none t with
  | none => exact congrArg (·, none) (trim_append h t)
  | some sides => exact congrArg (·, some (trim sides.2)) (trim_append h sides.1)

theorem partition_nest (n : Nat) (line : Text) : partition (nest n line) = partition line := by
  obtain ⟨lead, hline, hlead⟩ := exists_nest n line
  rw [hline, partition_blank_append hlead]

theorem ofLine_google_nest (form : ItemForm) (n : Nat) (line : Text) :
    Item.ofLine .google form (nest n line) = Item.ofLine .google form line := by
  rw [Item.ofLine, partition_nest, Item.ofLine]

/-! ## Lines that begin with a blank -/

theorem ofColonLine?_of_startsBlank {line : Text}
    (h : ∀ c, line.head? = some c → isBlank c = true) : Heading.ofColonLine? line = none := by
  cases hbefore : before? [':'] line with
  | none => rw [Heading.ofColonLine?, hbefore, Option.bind_none]
  | some title =>
    have hline := before?_eq_some_iff.1 hbefore
    rw [Heading.ofColonLine?, hbefore, Option.bind_some]
    cases title with
    | nil => exact absurd (h ':' (by rw [hline]; rfl)) (by decide)
    | cons c title => exact ofTitle?_of_mark rfl (isMark_of_isBlank (h c (by rw [hline]; rfl)))

theorem isBreak_of_standsAt (hm : 0 < m) {line : Text} (h : StandsAt m line) (below : List Text) :
    isBreak .google (some m) (line :: below) = false := by
  have hopen := opening?_google_none (ofColonLine?_of_startsBlank (h.head? hm)) below
  rw [isBreak, hopen]
  by_cases hne : line = []
  · subst hne
    rfl
  · simp [h.isIndented hne]

theorem takeUnbroken_of_standsAt (hm : 0 < m) (h : ∀ line ∈ lines, StandsAt m line) :
    takeUnbroken .google (some m) lines = (lines, []) := by
  induction lines with
  | nil => rfl
  | cons line below ih =>
    obtain ⟨hline, hbelow⟩ := List.forall_mem_cons.1 h
    rw [takeUnbroken, isBreak_of_standsAt hm hline, if_neg Bool.false_ne_true, ih hbelow]

theorem standsAt_takeEmpty (h : ∀ line ∈ lines, StandsAt m line) :
    ∀ line ∈ (takeEmpty lines).2, StandsAt m line := fun line hline =>
  h line ((List.dropWhile_sublist _).subset hline)

theorem takeSection_of_standsAt (hm : 0 < m) (h : ∀ line ∈ lines, StandsAt m line) :
    takeSection .google (some m) lines = ((takeEmpty lines).2, []) := by
  rw [takeSection, takeUnbroken_of_standsAt hm (standsAt_takeEmpty h)]
  exact Prod.ext (List.append_nil _) rfl

/-- The lines below an item that belong to it are taken by their places alone. -/
theorem takeIndented_of_standsAt (hm : 0 < m) (h : ∀ line ∈ lines, StandsAt m line) (k : Nat) :
    takeIndented .google (some m) k lines =
      (lines.takeWhile fun line => line.isEmpty || isIndented k line,
        lines.dropWhile fun line => line.isEmpty || isIndented k line) := by
  induction lines with
  | nil => rfl
  | cons line below ih =>
    obtain ⟨hline, hbelow⟩ := List.forall_mem_cons.1 h
    rw [takeIndented, isBreak_of_standsAt hm hline, Bool.not_false, Bool.true_and, ih hbelow,
      List.takeWhile_cons, List.dropWhile_cons]
    split <;> rfl

/-! ## Moving the body -/

theorem takeEmpty_nest (n : Nat) (lines : List Text) :
    takeEmpty (lines.map (nest n)) =
      ((takeEmpty lines).1.map (nest n), (takeEmpty lines).2.map (nest n)) := by
  rw [takeEmpty, List.takeWhile_map, List.dropWhile_map, isEmpty_comp_nest, takeEmpty]

theorem takeIndented_nest (hm : 0 < m) (h : ∀ line ∈ lines, StandsAt m line) (n k : Nat) :
    takeIndented .google (some (n + m)) (n + k) (lines.map (nest n)) =
      ((takeIndented .google (some m) k lines).1.map (nest n),
        (takeIndented .google (some m) k lines).2.map (nest n)) := by
  have hnest : ∀ line ∈ lines.map (nest n), StandsAt (n + m) line :=
    List.forall_mem_map.2 fun line hline => (h line hline).nest n
  have hplace : (fun line => line.isEmpty || isIndented (n + k) line) ∘ nest n =
      fun line => line.isEmpty || isIndented k line := funext fun line => by
    by_cases hne : line = []
    · subst hne
      rfl
    · rw [Function.comp_apply, isEmpty_nest, isIndented_nest n hne]
  rw [takeIndented_of_standsAt (Nat.add_pos_right n hm) hnest, takeIndented_of_standsAt hm h,
    List.takeWhile_map, List.dropWhile_map, hplace]

theorem takeItem_nest (hm : 0 < m) (h : ∀ line ∈ lines, StandsAt m line) (form : ItemForm)
    {line : Text} (hne : line ≠ []) (n : Nat) :
    takeItem .google (some (n + m)) form (nest n line) (lines.map (nest n)) =
      ((takeItem .google (some m) form line lines).1,
        (takeItem .google (some m) form line lines).2.map (nest n)) := by
  rw [takeItem, indent_nest n hne, Nat.add_assoc, takeIndented_nest hm h, ofLine_google_nest,
    dedent_nest, takeItem]

theorem takeItem_snd (hm : 0 < m) (h : ∀ line ∈ lines, StandsAt m line) (form : ItemForm)
    (line : Text) : (takeItem .google (some m) form line lines).2 =
      lines.dropWhile fun rest => rest.isEmpty || isIndented (indent line + 1) rest := by
  rw [takeItem, takeIndented_of_standsAt hm h]

/-- What is left below an item stands in the same section. -/
theorem standsAt_takeItem (hm : 0 < m) (h : ∀ line ∈ lines, StandsAt m line) (form : ItemForm)
    (line : Text) : ∀ rest ∈ (takeItem .google (some m) form line lines).2, StandsAt m rest := by
  rw [takeItem_snd hm h]
  exact fun rest hrest => h rest ((List.dropWhile_sublist _).subset hrest)

/-- Empty lines below an item belong to it. -/
theorem head?_takeItem (hm : 0 < m) (h : ∀ line ∈ lines, StandsAt m line) (form : ItemForm)
    (line : Text) : (takeItem .google (some m) form line lines).2.head? ≠ some [] := by
  rw [takeItem_snd hm h]
  intro he
  have hnot := List.head?_dropWhile_not
    (fun rest => List.isEmpty rest || isIndented (indent line + 1) rest) lines
  rw [he] at hnot
  cases hnot

/-- All lines of the body go to items, and these do not depend on where it stands. -/
theorem takeItems_nest (hm : 0 < m) (h : ∀ line ∈ lines, StandsAt m line)
    (hhead : lines.head? ≠ some []) (form : ItemForm) (n : Nat) :
    takeItems .google (some (n + m)) form (lines.map (nest n)) =
      takeItems .google (some m) form lines ∧ (takeItems .google (some m) form lines).2 = [] := by
  fun_induction takeItems .google (some m) form lines with
  | case1 => exact ⟨by rw [List.map_nil, takeItems], rfl⟩
  | case2 line below hbreak =>
    rw [isBreak_of_standsAt hm (h line List.mem_cons_self)] at hbreak
    cases hbreak
  | case3 line below hbreak first rest ih =>
    obtain ⟨hline, hbelow⟩ := List.forall_mem_cons.1 h
    have hne : line ≠ [] := fun he => hhead (by rw [he]; rfl)
    obtain ⟨hitems, hrest⟩ :=
      ih (standsAt_takeItem hm hbelow form line) (head?_takeItem hm hbelow form line)
    refine ⟨?_, hrest⟩
    have hgoes := isBreak_of_standsAt (Nat.add_pos_right n hm) (hline.nest n)
    rw [List.map_cons, takeItems_cons (hgoes _), takeItem_nest hm hbelow form hne, hitems]

/-! ## What a section is written as -/

theorem admonition_nest (name : Text) (n : Nat) (lines : List Text) :
    admonition name (lines.map (nest n)) = admonition name lines := by
  rw [admonition, stripEmpty_nest, admonition]
  cases stripEmpty lines with
  | nil => rfl
  | cons line more =>
    cases more with
    | nil => simp only [List.map_cons, List.map_nil, trim_nest]
    | cons next more =>
      have hdedent := dedent_nest n (line :: next :: more)
      simp only [List.map_cons] at hdedent
      simp only [List.map_cons, hdedent]

theorem rubric_nest (label : Text) (n : Nat) (lines : List Text) :
    rubric label (lines.map (nest n)) = rubric label lines := by
  rw [rubric, stripEmpty_nest, dedent_nest, rubric]

theorem proseLines_google_nest (n : Nat) (lines : List Text) (heading : Heading) :
    proseLines .google (lines.map (nest n)) heading = proseLines .google lines heading := by
  cases heading with
  | rubric label => exact rubric_nest label n lines
  | admonition name => exact admonition_nest name n lines
  | seeAlso =>
    simp only [proseLines]
    exact admonition_nest _ n lines
  | _ => rfl

theorem returned?_nest (n : Nat) (lines : List Text) :
    returned? (lines.map (nest n)) = returned? lines := by
  rw [returned?, dedent_nest, returned?]

/-- A body is read to its end, and written in the same way wherever it stands. -/
theorem takeBody_nest (h : IsBody m lines) (heading : Heading) (n : Nat)
    (inner : List Text → List Text) :
    ((takeBody .google heading (lines.map (nest n))).1.mapDescriptions inner).lines .google =
      ((takeBody .google heading lines).1.mapDescriptions inner).lines .google := by
  have hrest := standsAt_takeEmpty h.stands
  simp only [takeBody, (h.nest n).first, h.first, Option.getD_some,
    takeSection_of_standsAt h.pos h.stands,
    takeSection_of_standsAt (h.nest n).pos (h.nest n).stands, takeEmpty_nest]
  split
  · rw [(takeItems_nest h.pos hrest (head?_takeEmpty_snd lines) _ n).1]
  · split
    · rw [returned?_nest]
    · rw [returned?_nest]
    · exact proseLines_google_nest n _ heading

theorem takeBody_snd (h : IsBody m lines) (heading : Heading) :
    (takeBody .google heading lines).2 = [] := by
  have hrest := standsAt_takeEmpty h.stands
  simp only [takeBody, h.first, Option.getD_some, takeSection_of_standsAt h.pos h.stands]
  split
  · exact (takeItems_nest h.pos hrest (head?_takeEmpty_snd lines) _ 0).2
  · split <;> rfl

/-! ## A docstring that is one section -/

/-- A heading with a colon in the first line, and its body in all lines below it. -/
structure IsSection (heading : Heading) (m : Nat) (line : Text) (below : List Text) : Prop where
  heading : Heading.ofColonLine? line = some heading
  body : IsBody m below
  newline : ∀ l ∈ below, '\n' ∉ l
  last : below.getLast? ≠ some []

namespace IsSection

variable {heading : Heading} {line : Text}

theorem nest (h : IsSection heading m line lines) (n : Nat) :
    IsSection heading (n + m) line (lines.map (Text.nest n)) where
  heading := h.heading
  body := h.body.nest n
  newline := List.forall_mem_map.2 fun l hl hc =>
    (mem_nest hc).elim (absurd · (by decide)) (h.newline l hl)
  last := getLast?_map_ne_nil (fun l _ => isEmpty_nest n l) h.last

theorem trimEnd (h : IsSection heading m line lines) :
    IsSection heading m line (lines.map Text.trimEnd) where
  heading := h.heading
  body := h.body.trimEnd
  newline := List.forall_mem_map.2 fun l hl hc =>
    h.newline l hl ((dropEndWhile_sublist isBlank l).subset hc)
  last := getLast?_map_ne_nil (fun l hl => (h.body.stands l hl).isEmpty_trimEnd) h.last

/-- The heading starts with no mark. -/
theorem exists_line (h : IsSection heading m line lines) :
    ∃ c u, line = c :: u ∧ isMark c = false := by
  obtain ⟨title, rfl, htitle⟩ := Heading.exists_of_ofColonLine? h.heading
  obtain ⟨c, hc, hmark⟩ := htitle.head
  obtain ⟨u, rfl⟩ := List.head?_eq_some_iff.1 hc
  exact ⟨c, u ++ [':'], rfl, hmark⟩

theorem getLast?_line (h : IsSection heading m line lines) : line.getLast? = some ':' := by
  obtain ⟨title, rfl, -⟩ := Heading.exists_of_ofColonLine? h.heading
  exact List.getLast?_concat

/-- The heading holds no mark but its colon and the spaces in it. -/
theorem not_mem_line (h : IsSection heading m line lines) {c : Char} (hmark : isMark c = true)
    (hspace : c ≠ ' ') (hcolon : c ≠ ':') : c ∉ line := by
  obtain ⟨title, rfl, htitle⟩ := Heading.exists_of_ofColonLine? h.heading
  rw [List.mem_append, List.mem_singleton, not_or]
  exact ⟨fun hc => hspace (htitle.space c hc hmark), hcolon⟩

theorem trimEnd_line (h : IsSection heading m line lines) : Text.trimEnd line = line :=
  trimEnd_eq_self fun c hc => by
    rw [h.getLast?_line] at hc
    exact Option.some.inj hc ▸ rfl

/-- The lines of the section, as they are read from its text. -/
theorem trimmedLines_unlines (h : IsSection heading m line lines) :
    trimmedLines (unlines (line :: lines)) = line :: lines.map Text.trimEnd := by
  have hline : '\n' ∉ line := h.not_mem_line rfl (by decide) (by decide)
  have hlast : (line :: lines).getLast? ≠ some [] := by
    obtain ⟨next, more, hlines⟩ := List.exists_cons_of_ne_nil h.body.ne_nil
    have hlast := h.last
    rw [hlines] at hlast ⊢
    rwa [List.getLast?_cons_cons]
  rw [trimmedLines_unlines_of_newline (List.forall_mem_cons.2 ⟨hline, h.newline⟩) hlast,
    List.map_cons, h.trimEnd_line]

/-- The whole text becomes what its one section is written as. -/
theorem canonical_google (h : IsSection heading m line lines) :
    canonical .google (line :: lines) =
      ((takeBody .google heading (lines.map Text.trimEnd)).1.mapDescriptions
        (canonical .google)).lines .google := by
  have hbody := h.body.trimEnd
  have hmap : (line :: lines).map Text.trimEnd = line :: lines.map Text.trimEnd := by
    rw [List.map_cons, h.trimEnd_line]
  have hhead : (line :: lines.map Text.trimEnd).head? ≠ some [] := by
    obtain ⟨c, u, rfl, -⟩ := h.exists_line
    exact nofun
  have hopen : opening? .google (line :: lines.map Text.trimEnd) =
      some (.heading heading, lines.map Text.trimEnd) := by
    rw [opening?, h.heading, Option.bind_some, hbody.first, Option.getD_some, if_pos hbody.pos]
  have hnext (started : Bool) : nextPart .google started (line :: lines.map Text.trimEnd) =
      takeBody .google heading (lines.map Text.trimEnd) := by
    rw [nextPart, hopen]
  rw [canonical_eq, hmap, takeEmpty_of_head? hhead, canonicalParts_cons, hnext,
    takeBody_snd hbody, canonicalParts, List.append_nil, List.nil_append]

/-- It is written without regard to the place of its body. -/
theorem canonical_google_nest (h : IsSection heading m line lines) (n : Nat) :
    canonical .google (line :: lines.map (Text.nest n)) = canonical .google (line :: lines) := by
  rw [(h.nest n).canonical_google, h.canonical_google, h.body.map_trimEnd_nest,
    takeBody_nest h.body.trimEnd]

/-- No line of it is a heading to be underlined, so that its lines stay as they are. -/
theorem canonical_numpy (h : IsSection heading m line lines) :
    canonical .numpy (line :: lines.map Text.trimEnd) = line :: lines.map Text.trimEnd := by
  obtain ⟨c, u, hline, hc⟩ := h.exists_line
  have hbody := h.body.trimEnd
  have hbelow (l : Text) (hl : l ∈ lines.map Text.trimEnd) :
      Heading.ofTitle? l = none ∧ l.head? ≠ some '.' := by
    have hblank := (hbody.stands l hl).head? hbody.pos
    refine ⟨?_, fun he => absurd (hblank '.' he) (by decide)⟩
    cases l with
    | nil => exact ofTitle?_nil
    | cons d l => exact ofTitle?_of_mark rfl (isMark_of_isBlank (hblank d rfl))
  have hheading : Heading.ofTitle? line = none ∧ line.head? ≠ some '.' := by
    refine ⟨ofTitle?_of_last_mark h.getLast?_line (by decide), fun he => ?_⟩
    rw [hline] at he
    rw [Option.some.inj he] at hc
    exact absurd hc (by decide)
  have htrim : ∀ l ∈ line :: lines.map Text.trimEnd, Text.trimEnd l = l :=
    List.forall_mem_cons.2 ⟨h.trimEnd_line, List.forall_mem_map.2 fun l _ => trimEnd_trimEnd l⟩
  exact canonical_eq_self htrim (unopened_numpy (List.forall_mem_cons.2 ⟨hheading, hbelow⟩))

theorem trimmedLines_canonicalText_numpy (h : IsSection heading m line lines) :
    trimmedLines (canonicalText .numpy (unlines (line :: lines))) =
      line :: lines.map Text.trimEnd := by
  rw [canonicalText, h.trimmedLines_unlines, h.canonical_numpy, h.trimEnd.trimmedLines_unlines,
    List.map_map]
  exact congrArg _ (List.map_congr_left fun l _ => trimEnd_trimEnd l)

end IsSection

end CallDoc.Section
