import CallDoc.Markup.Parse
import CallDoc.Proofs.Results
import CallDoc.Proofs.Text.Prose

/-!
Line numbers are carried along by the reading of markup, and nothing depends on them: lines
with other numbers are cut into the same frames and read as the same blocks, with those
numbers in them.
-/
namespace CallDoc

open Text

variable (f : Nat → Nat)

/-- The line with another number. -/
def Line.renumber (line : Line) : Line := { line with number := f line.number }

/-- The frame with other numbers, also on the lines of its bodies. -/
def Frame.renumber : Frame → Frame
  | paragraph line text => paragraph (f line) text
  | bullets line bullet items => bullets (f line) bullet (items.map (List.map (Line.renumber f)))
  | enumerated line sequence bracket start items =>
    enumerated (f line) sequence bracket start (items.map (List.map (Line.renumber f)))
  | literal line text => literal (f line) text
  | doctest line text => doctest (f line) text
  | quote line body => quote (f line) (body.map (Line.renumber f))
  | field line role name type body =>
    field (f line) role name type (body.map (Line.renumber f))
  | rubric line title => rubric (f line) title
  | admonition line label body => admonition (f line) label (body.map (Line.renumber f))
  | comment line text => comment (f line) text

namespace Block

mutual

/-- The block with other numbers, at every depth. -/
def renumber : Block → Block
  | paragraph line spans => paragraph (f line) spans
  | bullets line bullet items => bullets (f line) bullet (renumberItems items)
  | enumerated line sequence bracket start items =>
    enumerated (f line) sequence bracket start (renumberItems items)
  | literal line text => literal (f line) text
  | doctest line text => doctest (f line) text
  | quote line children => quote (f line) (renumberAll children)
  | field line role name type body => field (f line) role name type (renumberAll body)
  | rubric line spans => rubric (f line) spans
  | admonition line label children => admonition (f line) label (renumberAll children)
  | comment line text => comment (f line) text

def renumberAll : List Block → List Block
  | [] => []
  | block :: more => renumber block :: renumberAll more

def renumberItems : List (List Block) → List (List Block)
  | [] => []
  | item :: more => renumberAll item :: renumberItems more

end

theorem renumberAll_eq (blocks : List Block) : renumberAll f blocks = blocks.map (renumber f) := by
  induction blocks with
  | nil => rfl
  | cons block more ih => rw [renumberAll, ih, List.map_cons]

theorem renumberItems_eq (items : List (List Block)) :
    renumberItems f items = items.map (List.map (renumber f)) := by
  induction items with
  | nil => rfl
  | cons item more ih => rw [renumberItems, renumberAll_eq, ih, List.map_cons]

end Block

/-! ## Lines -/

namespace Line

variable (line : Line) (lines : List Line)

@[simp] theorem text_renumber : (line.renumber f).text = line.text := rfl

@[simp] theorem number_renumber : (line.renumber f).number = f line.number := rfl

@[simp] theorem isBlank_renumber : (line.renumber f).isBlank = line.isBlank := rfl

@[simp] theorem isIndented_renumber : (line.renumber f).isIndented = line.isIndented := rfl

@[simp] theorem isBlank_comp_renumber : isBlank ∘ renumber f = isBlank := rfl

@[simp] theorem text_comp_renumber : text ∘ renumber f = text := rfl

theorem hanging_renumber : hanging (lines.map (renumber f)) =
    ((hanging lines).1.map (renumber f), (hanging lines).2.map (renumber f)) := by
  have hbody : dropEndWhile isBlank ((lines.map (renumber f)).takeWhile
      fun line => line.isBlank || line.isIndented) = (hanging lines).1.map (renumber f) := by
    rw [List.takeWhile_map, dropEndWhile_map]
    rfl
  have hafter : (hanging lines).2 = lines.drop (hanging lines).1.length := rfl
  rw [hanging, hbody, hafter, List.length_map, List.map_drop]

theorem margin_renumber : margin (lines.map (renumber f)) = margin lines := by
  rw [margin, List.filter_map, List.map_map]
  rfl

theorem dedent_renumber : dedent (lines.map (renumber f)) = (dedent lines).map (renumber f) := by
  rw [dedent, margin_renumber, dedent, List.map_map, List.map_map]
  rfl

theorem bodyBelow_renumber (below : List Line) :
    bodyBelow (line.renumber f) (below.map (renumber f)) =
      (bodyBelow line below).map (renumber f) := by
  rw [bodyBelow, dedent_renumber, isBlank_renumber, bodyBelow, List.map_append]
  split <;> rfl

theorem dropWhile_isBlank_renumber :
    (lines.map (renumber f)).dropWhile isBlank = (lines.dropWhile isBlank).map (renumber f) :=
  List.dropWhile_map

end Line

/-! ## Frames -/

namespace Frame

variable (line : Line) (below : List Line)

theorem ofDirective_renumber (name argument : Text) :
    ofDirective (line.renumber f) name argument (below.map (Line.renumber f)) =
      (ofDirective line name argument below).renumber f := by
  have hcode : code (below.map (Line.renumber f)) = code below := by
    rw [code, Line.dedent_renumber, List.dropWhile_map, List.dropWhile_map, List.map_map]
    rfl
  have hbody := Line.bodyBelow_renumber f ⟨line.number, argument⟩ below
  unfold ofDirective
  simp only [Line.number_renumber, Line.text_renumber, hcode, Line.dedent_renumber]
  split
  · rfl
  · split
    · rfl
    · split
      · rfl
      · split
        · exact congrArg _ hbody
        · rfl

theorem ofExplicit_renumber :
    ofExplicit (line.renumber f) (below.map (Line.renumber f)) =
      (ofExplicit line below).renumber f := by
  unfold ofExplicit
  simp only [Line.text_renumber]
  split
  · exact ofDirective_renumber f line below _ _
  · rw [← List.map_cons, List.map_map]
    rfl

theorem items_renumber (next? : Nat → Text → Option Nat) (count offset : Nat) :
    items next? count offset (line.renumber f) (below.map (Line.renumber f)) =
      ((items next? count offset line below).1.map (List.map (Line.renumber f)),
        (items next? count offset line below).2.map (Line.renumber f)) := by
  have hitem (line : Line) (below : List Line) (offset : Nat) :
      Line.bodyBelow ⟨f line.number, line.text.drop offset⟩ (below.map (Line.renumber f)) =
        (Line.bodyBelow { line with text := line.text.drop offset } below).map
          (Line.renumber f) := Line.bodyBelow_renumber f ⟨line.number, line.text.drop offset⟩ below
  fun_induction items next? count offset line below with
  | case1 count offset line below item hnext =>
    rw [items_eq]
    simp only [Line.hanging_renumber, Line.number_renumber, Line.text_renumber, hitem,
      Line.dropWhile_isBlank_renumber, hnext]
    rfl
  | case2 count offset line below item next more hnext hplace =>
    rw [items_eq]
    simp only [Line.hanging_renumber, Line.number_renumber, Line.text_renumber, hitem,
      Line.dropWhile_isBlank_renumber, hnext, List.map_cons, hplace]
    rfl
  | case3 count offset line below item next more hnext offset' hplace others ih =>
    rw [items_eq]
    simp only [Line.hanging_renumber, Line.number_renumber, Line.text_renumber, hitem,
      Line.dropWhile_isBlank_renumber, hnext, List.map_cons, hplace, ih]
    rfl

theorem enumerator?_renumber (text : Text) :
    enumerator? text (below.map (Line.renumber f)) = enumerator? text below := by
  cases below <;> rfl

theorem ofParagraph_renumber :
    ofParagraph (line.renumber f) (below.map (Line.renumber f)) =
      ((ofParagraph line below).1.map (renumber f),
        (ofParagraph line below).2.map (Line.renumber f)) := by
  have hsolid : (fun line => !Line.isBlank line) ∘ Line.renumber f =
      fun line => !Line.isBlank line := rfl
  have htexts : (line.renumber f :: (below.takeWhile fun line => !line.isBlank).map
        (Line.renumber f)).map Line.text =
      (line :: below.takeWhile fun line => !line.isBlank).map Line.text := by
    rw [List.map_cons, List.map_map]
    rfl
  have htrimmed : (line.renumber f :: (below.takeWhile fun line => !line.isBlank).map
        (Line.renumber f)).map (fun line => trim line.text) =
      (line :: below.takeWhile fun line => !line.isBlank).map fun line => trim line.text := by
    rw [List.map_cons, List.map_map]
    rfl
  unfold ofParagraph
  simp only [List.takeWhile_map, List.dropWhile_map, hsolid, htexts, htrimmed,
    Line.text_renumber, Line.number_renumber, Line.isBlank_comp_renumber]
  cases hnext : (below.dropWhile fun line => !line.isBlank).dropWhile Line.isBlank with
  | nil =>
    simp only [List.map_nil]
    split
    · rfl
    · split <;> split <;> rfl
  | cons next more =>
    have hdedent := Line.dedent_renumber f (next :: (Line.hanging more).1)
    rw [List.map_cons] at hdedent
    simp only [List.map_cons, Line.isIndented_renumber, Line.hanging_renumber, hdedent,
      List.map_map, Line.text_comp_renumber, Line.number_renumber]
    split
    · rfl
    · split
      · split <;> split <;> rfl
      · split <;> rfl

theorem first_renumber :
    first (line.renumber f) (below.map (Line.renumber f)) =
      ((first line below).1.map (renumber f), (first line below).2.map (Line.renumber f)) := by
  have hdedent := Line.dedent_renumber f (line :: (Line.hanging below).1)
  rw [List.map_cons] at hdedent
  unfold first
  simp only [Line.hanging_renumber, Line.isIndented_renumber, Line.text_renumber,
    Line.number_renumber, hdedent, ofExplicit_renumber, items_renumber, enumerator?_renumber,
    ofParagraph_renumber]
  split
  · rfl
  · split
    · rfl
    · split
      · rename_i header rest _
        have hbody := Line.bodyBelow_renumber f ⟨line.number, rest⟩ (Line.hanging below).1
        split
        · exact congrArg (fun body => ([Frame.field _ _ _ _ body], _)) hbody
        · rfl
      · split
        · rfl
        · split <;> rfl

theorem cut_renumber (lines : List Line) :
    cut (lines.map (Line.renumber f)) = (cut lines).map (renumber f) := by
  fun_induction cut lines with
  | case1 => rw [List.map_nil, cut, List.map_nil]
  | case2 line below hblank ih =>
    rw [List.map_cons, cut, Line.isBlank_renumber, if_pos hblank, ih]
  | case3 line below hblank ih =>
    rw [List.map_cons, cut, Line.isBlank_renumber, if_neg hblank, first_renumber, ih,
      List.map_append]

theorem toBlock_renumber {roles : List Text} {read : List Line → Except Error (List Block)}
    {frame : Frame}
    (h : ∀ body ∈ frame.bodies, read (body.map (Line.renumber f)) =
      (read body).map (List.map (Block.renumber f))) :
    (frame.renumber f).toBlock roles read = (frame.toBlock roles read).map (Block.renumber f) := by
  have hbody {body : List Line} (hmem : body ∈ frame.bodies) {wrap wrap' : List Block → Block}
      (hwrap : ∀ blocks, wrap' (blocks.map (Block.renumber f)) = (wrap blocks).renumber f) :
      (read (body.map (Line.renumber f))).map wrap' =
        ((read body).map wrap).map (Block.renumber f) := by
    rw [h body hmem]
    cases read body with
    | error e => rfl
    | ok blocks => exact congrArg Except.ok (hwrap blocks)
  have hitems {items : List (List Line)} (hmem : items = frame.bodies)
      {wrap wrap' : List (List Block) → Block}
      (hwrap : ∀ items, wrap' (items.map (List.map (Block.renumber f))) =
        (wrap items).renumber f) :
      ((items.map (List.map (Line.renumber f))).mapM read).map wrap' =
        ((items.mapM read).map wrap).map (Block.renumber f) := by
    rw [mapM_map_of_forall (hmem ▸ h)]
    cases items.mapM read with
    | error e => rfl
    | ok items => exact congrArg Except.ok (hwrap items)
  cases frame with
  | paragraph line text =>
    rw [renumber, toBlock, toBlock]
    cases Inline.parse roles text <;> rfl
  | rubric line title =>
    rw [renumber, toBlock, toBlock]
    cases Inline.parse roles title <;> rfl
  | bullets line bullet items =>
    exact hitems rfl fun items => by rw [Block.renumber, Block.renumberItems_eq]
  | enumerated line sequence bracket start items =>
    exact hitems rfl fun items => by rw [Block.renumber, Block.renumberItems_eq]
  | quote line body =>
    exact hbody List.mem_cons_self fun blocks => by rw [Block.renumber, Block.renumberAll_eq]
  | field line role name type body =>
    exact hbody List.mem_cons_self fun blocks => by rw [Block.renumber, Block.renumberAll_eq]
  | admonition line label body =>
    exact hbody List.mem_cons_self fun blocks => by rw [Block.renumber, Block.renumberAll_eq]
  | literal | doctest | comment => rfl

end Frame

/-! ## The block tree -/

/-- The numbers of the lines stand in the blocks, and change nothing else. -/
theorem Block.ofLines_renumber (roles : List Text) (lines : List Line) :
    ofLines roles (lines.map (Line.renumber f)) =
      (ofLines roles lines).map (List.map (renumber f)) := by
  induction hweight : Line.weight lines using Nat.strongRecOn generalizing lines with
  | ind weight ih =>
    rw [ofLines_eq, Frame.cut_renumber, ofLines_eq]
    refine mapM_map_of_forall fun frame hframe => Frame.toBlock_renumber f fun body hbody => ?_
    exact ih _ (hweight ▸ Frame.cut_weight lines frame hframe body hbody) body rfl

end CallDoc
