import CallDoc.Doc.Declare
import CallDoc.Proofs.Doc.Lead
import CallDoc.Proofs.Markup.Counting
import CallDoc.Proofs.Markup.ItemNumbers
import CallDoc.Proofs.Numeral.Label
import CallDoc.Proofs.Results

/-!
The prose of a tree without the walk. A tree is laid out as a list of passages, each with the items
and quotes around it. What leads in a passage then depends only on which of these an earlier piece
of prose has opened, and the walk, which spends its lead as it goes, shows just that.
-/
namespace CallDoc

open Text

/-- What prose lies in: a list item with its label, or a quote or the body of an admonition. The
place is the way to it through the tree, by the numbers of blocks and items, the last one first. -/
inductive Container
  | item (place : List Nat) (label : Text)
  | indented (place : List Nat)
  deriving DecidableEq, Repr

namespace Container

def place : Container → List Nat
  | item place _ | indented place => place

/-- What stands before the first line of the prose in it. -/
def mark : Container → Text
  | item _ label => label
  | indented _ => quoteIndent

/-- If it is an item, its label has the property. -/
def Labelled (P : Text → Prop) : Container → Prop
  | item _ label => P label
  | indented _ => True

/-- The columns that containers take. -/
def width : List Container → Nat
  | [] => 0
  | c :: around => c.mark.length + width around

end Container

/-- What a passage consists of. -/
inductive Matter
  | prose (text : Text)
  /-- Text that is shown as it stands. -/
  | literal (text : Text)
  | skipped
  | field
  deriving DecidableEq, Repr

/-- A part of a tree that is shown in one piece, or left out. -/
structure Passage where
  line : Nat
  matter : Matter
  /-- What it lies in, the innermost first. -/
  around : List Container
  deriving DecidableEq, Repr

namespace Block

mutual

/-- The passages of a block. The label of an admonition stands outside its body; the body of a
field is not shown. -/
def passages (place : List Nat) (around : List Container) : Block → List Passage
  | paragraph line spans => [⟨line, .prose (Span.shownAll spans), around⟩]
  | doctest line text => [⟨line, .prose text, around⟩]
  | rubric line spans => [⟨line, .prose (titleShown (Span.shownAll spans)), around⟩]
  | literal line text => [⟨line, .literal text, around⟩]
  | quote _ children => passagesOfAll place 0 (.indented place :: around) children
  | admonition line label children =>
    ⟨line, .prose (label ++ [':']), around⟩ ::
      passagesOfAll place 0 (.indented place :: around) children
  | bullets _ bullet items =>
    passagesOfItems place 0 around (List.replicate items.length [bullet, ' ']) items
  | enumerated _ sequence bracket start items =>
    passagesOfItems place 0 around (sequence.labels bracket start items.length) items
  | field line _ _ _ _ => [⟨line, .field, around⟩]
  | comment line _ => [⟨line, .skipped, around⟩]

/-- The passages of the blocks from number `i` on. -/
def passagesOfAll (place : List Nat) (i : Nat) (around : List Container) :
    List Block → List Passage
  | [] => []
  | block :: more => passages (i :: place) around block ++ passagesOfAll place (i + 1) around more

/-- The passages of the items from number `i` on, each in a container with its own label. -/
def passagesOfItems (place : List Nat) (i : Nat) (around : List Container) (labels : List Text) :
    List (List Block) → List Passage
  | [] => []
  | item :: more =>
    passagesOfAll (i :: place) 0 (.item (i :: place) (labels.headD []) :: around) item ++
      passagesOfItems place (i + 1) around labels.tail more

end

/-- The passages of a document. -/
def passagesOf (blocks : List Block) : List Passage := passagesOfAll [] 0 [] blocks

end Block

/-! ## What leads in a passage -/

def Passage.isProse (p : Passage) : Bool := p.matter matches .prose _

namespace Container

variable {earlier : List Passage} {c : Container} {around : List Container}

/-- A piece of prose has been shown in the container. -/
def Opened (earlier : List Passage) (c : Container) : Prop :=
  ∃ p ∈ earlier, p.isProse = true ∧ c ∈ p.around

instance : Decidable (c.Opened earlier) :=
  inferInstanceAs (Decidable (∃ p ∈ earlier, p.isProse = true ∧ c ∈ p.around))

/-- The mark, or spaces in its place after it has been shown. -/
def shown (earlier : List Passage) (c : Container) : Text :=
  if c.Opened earlier then spaces c.mark.length else c.mark

/-- What leads in prose in the containers after the earlier passages. -/
def lead (earlier : List Passage) (around : List Container) : Lead := around.map (shown earlier)

theorem length_shown (earlier : List Passage) (c : Container) :
    (c.shown earlier).length = c.mark.length := by
  rw [shown]
  split
  · exact length_spaces _
  · rfl

theorem length_text_lead (earlier : List Passage) (around : List Container) :
    (lead earlier around).text.length = width around := by
  induction around with
  | nil => rfl
  | cons c around ih =>
    rw [lead, List.map_cons, Lead.text_cons, List.length_append, length_shown, width, ← ih,
      Nat.add_comm]
    rfl

theorem indent_lead (earlier : List Passage) (around : List Container) :
    (lead earlier around).indent = spaces (width around) := by
  induction around with
  | nil => rfl
  | cons c around ih =>
    rw [lead, List.map_cons, Lead.indent, List.flatMap_cons, length_shown]
    exact (congrArg (spaces c.mark.length ++ ·) ih).trans (List.replicate_append_replicate ..)

theorem opened_append {more : List Passage} :
    c.Opened (earlier ++ more) ↔ c.Opened earlier ∨ c.Opened more := by
  simp only [Opened, List.mem_append, or_and_right, exists_or]

/-- Prose spends the lead of all that it lies in. -/
theorem spent_lead {p : Passage} (hp : p.isProse = true) :
    (lead earlier p.around).spent = lead (earlier ++ [p]) p.around := by
  rw [Lead.spent, lead, List.map_map]
  refine List.map_congr_left fun c hc => ?_
  have hopened : c.Opened (earlier ++ [p]) :=
    opened_append.2 (Or.inr ⟨p, List.mem_singleton_self p, hp, hc⟩)
  rw [Function.comp_apply, length_shown, shown, if_pos hopened]

theorem lead_concat {p : Passage} (hp : p.isProse = false) (around : List Container) :
    lead (earlier ++ [p]) around = lead earlier around := by
  refine List.map_congr_left fun c _ => ?_
  have hopened : c.Opened (earlier ++ [p]) ↔ c.Opened earlier := by
    simp [Opened, hp]
  simp only [shown, hopened]

end Container

namespace Passage

/-- The chunk of a passage. Literal text is not led in, it has an indent of its own. -/
def chunk (earlier : List Passage) (p : Passage) : Chunk :=
  match p.matter with
  | .prose text =>
    .prose p.line
      ((Container.lead earlier p.around).text ++ hang (spaces (Container.width p.around)) text)
  | .literal text => .prose p.line (quoteIndent ++ hang quoteIndent text)
  | .skipped => .skipped p.line
  | .field => .field p.line

/-- The chunks of passages that stand behind the earlier ones. -/
def chunks (earlier : List Passage) : List Passage → List Chunk
  | [] => []
  | p :: more => p.chunk earlier :: chunks (earlier ++ [p]) more

theorem chunks_append (earlier ps more : List Passage) :
    chunks earlier (ps ++ more) = chunks earlier ps ++ chunks (earlier ++ ps) more := by
  induction ps generalizing earlier with
  | nil => rw [List.append_nil, List.nil_append]; rfl
  | cons p ps ih =>
    rw [List.cons_append, chunks, chunks, ih, List.append_assoc, List.singleton_append,
      List.cons_append]

theorem length_chunks (earlier ps : List Passage) : (chunks earlier ps).length = ps.length := by
  induction ps generalizing earlier with
  | nil => rfl
  | cons p ps ih => rw [chunks, List.length_cons, ih, List.length_cons]

/-- A passage is shown as those before it make it. -/
theorem getElem?_chunks (before after : List Passage) (p : Passage) :
    (chunks [] (before ++ p :: after))[before.length]? = some (p.chunk before) := by
  rw [chunks_append, List.getElem?_append_right (Nat.le_of_eq (length_chunks [] before)),
    length_chunks, Nat.sub_self]
  rfl

end Passage

/-! ## The walk -/

namespace Block

open Container

/-- The place is below all containers around it, and nothing earlier lies there. -/
structure Stands (earlier : List Passage) (around : List Container) (place : List Nat) : Prop where
  above : ∀ c ∈ around, c.place.length < place.length
  fresh : ∀ p ∈ earlier, ∀ c ∈ p.around, ¬ place <:+ c.place

namespace Stands

variable {earlier ps : List Passage} {around : List Container} {place : List Nat} {c : Container}

theorem below (h : Stands earlier around place) (k : Nat) : Stands earlier around (k :: place) where
  above c hc := (h.above c hc).trans (Nat.lt_succ_self place.length)
  fresh p hp c hc hplace := h.fresh p hp c hc ((List.suffix_cons k place).trans hplace)

/-- The blocks in a container are numbered below it. -/
theorem inner (h : Stands earlier around place) (hc : c.place = place) (k : Nat) :
    Stands earlier (c :: around) (k :: place) where
  above := List.forall_mem_cons.2 ⟨hc ▸ Nat.lt_succ_self _, (h.below k).above⟩
  fresh := (h.below k).fresh

/-- A container that the walk comes to has its mark still. -/
theorem lead_cons (h : Stands earlier around place) (hc : c.place = place) :
    lead earlier (c :: around) = c.mark :: lead earlier around := by
  have hopened : ¬ c.Opened earlier := fun ⟨p, hp, _, hmem⟩ =>
    h.fresh p hp c hmem (hc ▸ List.suffix_refl _)
  rw [lead, List.map_cons, shown, if_neg hopened, lead]

/-- What lies in the same containers is not below the place. -/
theorem append (h : Stands earlier around place)
    (hps : ∀ p ∈ ps, ∀ c ∈ p.around, c ∈ around ∨ ¬ place <:+ c.place) :
    Stands (earlier ++ ps) around place where
  above := h.above
  fresh := List.forall_mem_append.2 ⟨h.fresh, fun p hp c hc => (hps p hp c hc).elim
    (fun hmem hplace => absurd hplace.length_le (Nat.not_le.2 (h.above c hmem))) id⟩

/-- What is shown of one number is out of the way of the next ones. -/
theorem next {i k : Nat} (h : Stands earlier around (k :: place)) (hne : i ≠ k)
    (hps : ∀ p ∈ ps, ∀ c ∈ p.around, c ∈ around ∨ (i :: place) <:+ c.place) :
    Stands (earlier ++ ps) around (k :: place) := by
  refine h.append fun p hp c hc => (hps p hp c hc).imp_right fun hi hk => hne ?_
  have he : i :: place = k :: place :=
    (List.suffix_of_suffix_length_le hi hk (Nat.le_refl _)).eq_of_length rfl
  exact (List.cons.inj he).1

end Stands

/-- What lies in the container of the place lies around it or below it. -/
theorem around_of_mem_cons {around : List Container} {b c : Container}
    (h : b ∈ c :: around ∨ c.place <:+ b.place) : b ∈ around ∨ c.place <:+ b.place := by
  rcases h with hmem | hplace
  · rcases List.mem_cons.1 hmem with rfl | hmem
    · exact Or.inr (List.suffix_refl _)
    · exact Or.inl hmem
  · exact Or.inr hplace

mutual

/-- A passage of a block lies in what is around the block and in what is below its place. -/
theorem around_of_mem_passages (place : List Nat) (around : List Container) :
    ∀ block : Block, ∀ p ∈ passages place around block, ∀ c ∈ p.around,
      c ∈ around ∨ place <:+ c.place
  | paragraph .. | doctest .. | rubric .. | literal .. | field .. | comment .. =>
    List.forall_mem_singleton.2 fun _ => Or.inl
  | quote _ children => fun p hp c hc =>
    around_of_mem_cons (around_of_mem_passagesOfAll place 0 _ children p hp c hc)
  | admonition _ _ children => List.forall_mem_cons.2 ⟨fun _ => Or.inl, fun p hp c hc =>
    around_of_mem_cons (around_of_mem_passagesOfAll place 0 _ children p hp c hc)⟩
  | bullets _ _ items => around_of_mem_passagesOfItems place 0 around _ items
  | enumerated _ _ _ _ items => around_of_mem_passagesOfItems place 0 around _ items

theorem around_of_mem_passagesOfAll (place : List Nat) (i : Nat) (around : List Container) :
    ∀ blocks : List Block, ∀ p ∈ passagesOfAll place i around blocks, ∀ c ∈ p.around,
      c ∈ around ∨ place <:+ c.place
  | [] => List.forall_mem_nil _
  | block :: more =>
    have hblock := fun p hp c hc =>
      (around_of_mem_passages (i :: place) around block p hp c hc).imp_right
        (List.suffix_cons i place).trans
    List.forall_mem_append.2 ⟨hblock, around_of_mem_passagesOfAll place (i + 1) around more⟩

theorem around_of_mem_passagesOfItems (place : List Nat) (i : Nat) (around : List Container)
    (labels : List Text) : ∀ items : List (List Block),
    ∀ p ∈ passagesOfItems place i around labels items, ∀ c ∈ p.around,
      c ∈ around ∨ place <:+ c.place
  | [] => List.forall_mem_nil _
  | blocks :: more =>
    have hitem := fun p hp c hc => (around_of_mem_cons
      (around_of_mem_passagesOfAll (i :: place) 0 _ blocks p hp c hc)).imp_right
        (List.suffix_cons i place).trans
    List.forall_mem_append.2 ⟨hitem, around_of_mem_passagesOfItems place (i + 1) around _ more⟩

end

/-- What the passages show, and the lead that they leave behind. -/
def shows (earlier : List Passage) (around : List Container) (ps : List Passage) :
    List Chunk × Lead :=
  (Passage.chunks earlier ps, lead (earlier ++ ps) around)

theorem shows_nil (earlier : List Passage) (around : List Container) :
    shows earlier around [] = ([], lead earlier around) := by
  rw [shows, List.append_nil]
  rfl

theorem shows_append (earlier : List Passage) (around : List Container) (ps more : List Passage) :
    shows earlier around (ps ++ more) =
      ((shows earlier around ps).1 ++ (shows (earlier ++ ps) around more).1,
        (shows (earlier ++ ps) around more).2) := by
  simp only [shows, Passage.chunks_append, List.append_assoc]

theorem showProse_eq_shows (earlier : List Passage) (around : List Container) (line : Nat)
    (text : Text) : showProse (lead earlier around) line text =
      shows earlier around [⟨line, .prose text, around⟩] := by
  rw [showProse, indent_lead, spent_lead (p := ⟨line, .prose text, around⟩) rfl]
  rfl

mutual

/-- The walk over a block shows its passages. -/
theorem chunks_eq_shows {earlier : List Passage} {around : List Container} {place : List Nat}
    (h : Stands earlier around place) : ∀ block : Block, KeepsCount [block] →
    chunks (lead earlier around) block = shows earlier around (passages place around block)
  | paragraph line spans, _ => showProse_eq_shows earlier around line _
  | doctest line text, _ => showProse_eq_shows earlier around line text
  | rubric line spans, _ => showProse_eq_shows earlier around line _
  | literal .., _ | field .., _ | comment .., _ => Prod.ext rfl (lead_concat rfl around).symm
  | quote _ children, hkeeps => by
    have hinner := chunksOfAll_eq_shows (i := 0)
      (fun k _ => h.inner (c := .indented place) rfl k) children
      (hkeeps.inside (List.mem_singleton_self _))
    rw [h.lead_cons rfl, mark] at hinner
    rw [chunks, hinner]
    rfl
  | admonition line label children, hkeeps => by
    have hlabel := showProse_eq_shows earlier around line (label ++ [':'])
    have hbelow : Stands (earlier ++ [⟨line, .prose (label ++ [':']), around⟩]) around place :=
      h.append (List.forall_mem_singleton.2 fun _ => Or.inl)
    have hinner := chunksOfAll_eq_shows (i := 0)
      (fun k _ => hbelow.inner (c := .indented place) rfl k) children
      (hkeeps.inside (List.mem_singleton_self _))
    rw [hbelow.lead_cons rfl, mark] at hinner
    have hboth := shows_append earlier around [⟨line, .prose (label ++ [':']), around⟩]
      (passagesOfAll place 0 (.indented place :: around) children)
    rw [List.singleton_append] at hboth
    rw [chunks, hlabel, passages, hboth]
    exact congrArg (fun inner : List Chunk × Lead => (_ ++ inner.1, inner.2.tail)) hinner
  | bullets _ bullet items, hkeeps =>
    chunksOfItems_eq_shows (fun k _ => h.below k) _ items (fun _ => hkeeps.inside)
      List.length_replicate
  | enumerated _ sequence bracket start items, hkeeps =>
    chunksOfItems_eq_shows (fun k _ => h.below k) _ items (fun _ => hkeeps.inside)
      (sequence.length_labels bracket hkeeps.lt)

theorem chunksOfAll_eq_shows {earlier : List Passage} {around : List Container} {place : List Nat}
    {i : Nat} (h : ∀ k, i ≤ k → Stands earlier around (k :: place)) :
    ∀ blocks : List Block, KeepsCount blocks → chunksOfAll (lead earlier around) blocks =
      shows earlier around (passagesOfAll place i around blocks)
  | [], _ => (shows_nil earlier around).symm
  | block :: more, hkeeps => by
    have hblock := chunks_eq_shows (h i (Nat.le_refl i)) block hkeeps.head
    have hmore := chunksOfAll_eq_shows (fun k hk => (h k (Nat.le_of_succ_le hk)).next
      (Nat.ne_of_lt hk) (around_of_mem_passages (i :: place) around block)) more hkeeps.tail
    rw [chunksOfAll, hblock, passagesOfAll, shows_append, ← hmore]
    rfl

theorem chunksOfItems_eq_shows {earlier : List Passage} {around : List Container}
    {place : List Nat} {i : Nat} (h : ∀ k, i ≤ k → Stands earlier around (k :: place))
    (labels : List Text) : ∀ items : List (List Block), (∀ item ∈ items, KeepsCount item) →
    labels.length = items.length → chunksOfItems (lead earlier around) labels items =
      shows earlier around (passagesOfItems place i around labels items)
  | [], _, _ => (shows_nil earlier around).symm
  | blocks :: more, hkeeps, hlength => by
    obtain ⟨label, labels, rfl⟩ := List.exists_cons_of_length_eq_add_one hlength
    obtain ⟨hblocks, hkeeps⟩ := List.forall_mem_cons.1 hkeeps
    have hi := h i (Nat.le_refl i)
    have hitem := chunksOfAll_eq_shows (i := 0)
      (fun k _ => hi.inner (c := .item (i :: place) label) rfl k) blocks hblocks
    have hmore := chunksOfItems_eq_shows (fun k hk => (h k (Nat.le_of_succ_le hk)).next
      (Nat.ne_of_lt hk) fun p hp c hc =>
        around_of_mem_cons (c := .item (i :: place) label)
          (around_of_mem_passagesOfAll (i :: place) 0 _ blocks p hp c hc)) labels more hkeeps
      (Nat.succ.inj hlength)
    rw [hi.lead_cons rfl, mark] at hitem
    rw [chunksOfItems, hitem, passagesOfItems, shows_append, List.headD_cons, List.tail_cons,
      ← hmore]
    rfl

end

/-- A document shows its passages. -/
theorem chunksOfAll_nil {blocks : List Block} (hkeeps : KeepsCount blocks) :
    chunksOfAll [] blocks = (Passage.chunks [] (passagesOf blocks), []) :=
  chunksOfAll_eq_shows (fun _ _ => ⟨List.forall_mem_nil _, List.forall_mem_nil _⟩) blocks hkeeps

/-! ## Labels -/

/-- What stands before the items of a list. -/
def labels : Block → List Text
  | bullets _ bullet items => List.replicate items.length [bullet, ' ']
  | enumerated _ sequence bracket start items => sequence.labels bracket start items.length
  | _ => []

section Containers

variable {P : Text → Prop}

mutual

/-- What holds of the labels in a tree holds of the labels around its passages. -/
theorem labelled_passages {blocks : List Block} (hkeeps : KeepsCount blocks)
    (h : ∀ block, Occurs block blocks → ∀ label ∈ block.labels, P label) (place : List Nat)
    {around : List Container} (haround : ∀ c ∈ around, c.Labelled P) :
    ∀ block ∈ blocks, ∀ p ∈ passages place around block, ∀ c ∈ p.around, c.Labelled P
  | paragraph .., _ | doctest .., _ | rubric .., _ | literal .., _ | field .., _ | comment .., _ =>
    List.forall_mem_singleton.2 haround
  | quote _ children, hmem =>
    have hinner : ∀ c ∈ .indented place :: around, c.Labelled P :=
      List.forall_mem_cons.2 ⟨trivial, haround⟩
    labelled_passagesOfAll ((hkeeps.single hmem).inside (List.mem_singleton_self _))
      (fun b hb => h b (.inside hmem (List.mem_singleton_self _) hb))
      place 0 hinner children fun _ => id
  | admonition _ _ children, hmem =>
    have hinner : ∀ c ∈ .indented place :: around, c.Labelled P :=
      List.forall_mem_cons.2 ⟨trivial, haround⟩
    List.forall_mem_cons.2 ⟨haround,
      labelled_passagesOfAll ((hkeeps.single hmem).inside (List.mem_singleton_self _))
        (fun b hb => h b (.inside hmem (List.mem_singleton_self _) hb))
        place 0 hinner children fun _ => id⟩
  | bullets _ _ items, hmem =>
    labelled_passagesOfItems place 0 haround items (fun _ => (hkeeps.single hmem).inside)
      (fun _ hitem b hb => h b (.inside hmem hitem hb)) (h _ (.here hmem)) List.length_replicate
  | enumerated _ sequence bracket _ items, hmem =>
    labelled_passagesOfItems place 0 haround items (fun _ => (hkeeps.single hmem).inside)
      (fun _ hitem b hb => h b (.inside hmem hitem hb)) (h _ (.here hmem))
      (sequence.length_labels bracket (hkeeps.single hmem).lt)

theorem labelled_passagesOfAll {blocks : List Block} (hkeeps : KeepsCount blocks)
    (h : ∀ block, Occurs block blocks → ∀ label ∈ block.labels, P label) (place : List Nat)
    (i : Nat) {around : List Container} (haround : ∀ c ∈ around, c.Labelled P) :
    ∀ more : List Block, (∀ block ∈ more, block ∈ blocks) →
      ∀ p ∈ passagesOfAll place i around more, ∀ c ∈ p.around, c.Labelled P
  | [], _ => List.forall_mem_nil _
  | block :: more, hmem =>
    have ⟨hblock, hmore⟩ := List.forall_mem_cons.1 hmem
    List.forall_mem_append.2 ⟨labelled_passages hkeeps h (i :: place) haround block hblock,
      labelled_passagesOfAll hkeeps h place (i + 1) haround more hmore⟩

theorem labelled_passagesOfItems (place : List Nat) (i : Nat) {around : List Container}
    (haround : ∀ c ∈ around, c.Labelled P) {labels : List Text} : ∀ items : List (List Block),
      (∀ item ∈ items, KeepsCount item) →
      (∀ item ∈ items, ∀ block, Occurs block item → ∀ label ∈ block.labels, P label) →
      (∀ label ∈ labels, P label) → labels.length = items.length →
      ∀ p ∈ passagesOfItems place i around labels items, ∀ c ∈ p.around, c.Labelled P
  | [], _, _, _, _ => List.forall_mem_nil _
  | blocks :: more, hkeeps, h, hlabels, hlength => by
    obtain ⟨label, labels, rfl⟩ := List.exists_cons_of_length_eq_add_one hlength
    obtain ⟨hkeep, hkeeps⟩ := List.forall_mem_cons.1 hkeeps
    obtain ⟨hblocks, hmore⟩ := List.forall_mem_cons.1 h
    obtain ⟨hlabel, hlabels⟩ := List.forall_mem_cons.1 hlabels
    have hinner : ∀ c ∈ .item (i :: place) label :: around, c.Labelled P :=
      List.forall_mem_cons.2 ⟨hlabel, haround⟩
    exact List.forall_mem_append.2
      ⟨labelled_passagesOfAll hkeep hblocks (i :: place) 0 hinner blocks fun _ => id,
        labelled_passagesOfItems place (i + 1) haround more hkeeps hmore hlabels
          (Nat.succ.inj hlength)⟩

end

end Containers

section Parsed

variable {roles : List Text} {t : Text} {lines : List Line} {blocks : List Block}

theorem bullet_of_occurs (h : ofLines roles lines = .ok blocks) {line : Nat} {bullet : Char}
    {items : List (List Block)} (hlist : Occurs (.bullets line bullet items) blocks) :
    bullet = '*' ∨ bullet = '+' ∨ bullet = '-' := by
  obtain ⟨lines, frame, hframe, hread⟩ := exists_frame_of_occurs h hlist
  obtain ⟨_, _, _, -, hopens⟩ := Frame.exists_opens_of_mem_cut hframe
  cases hopens with
  | bullets hbullet =>
    obtain ⟨inner, -, he⟩ := map_eq_ok_iff.1 hread
    cases he
    exact Frame.bullet?_eq hbullet
  | code | unknown | comment | doctest | literal => cases hread
  | _ =>
    obtain ⟨inner, -, he⟩ := map_eq_ok_iff.1 hread
    cases he

/-- The label is one line, with more in it than spaces. -/
def IsSeen (label : Text) : Prop := '\n' ∉ label ∧ ∃ c ∈ label, c ≠ ' '

theorem isSeen_of_occurs (h : ofLines roles lines = .ok blocks) {block : Block}
    (hblock : Occurs block blocks) {label : Text} (hlabel : label ∈ block.labels) :
    IsSeen label := by
  cases block with
  | bullets line bullet items =>
    obtain rfl := List.eq_of_mem_replicate hlabel
    have hbullet := bullet_of_occurs h hblock
    refine ⟨?_, bullet, List.mem_cons_self, ?_⟩ <;>
      rcases hbullet with rfl | rfl | rfl <;> decide
  | enumerated line sequence bracket start items =>
    refine ⟨sequence.not_mem_of_mem_labels (by decide) (by decide) hlabel, ?_⟩
    rcases Sequence.closes_of_mem_labels hlabel with hclose | hclose
    · exact ⟨')', hclose, by decide⟩
    · exact ⟨'.', hclose, by decide⟩
  | _ => cases hlabel

theorem labelled_of_parse (h : parse roles t = .ok blocks) (hkeeps : KeepsCount blocks) :
    ∀ p ∈ passagesOf blocks, ∀ c ∈ p.around, c.Labelled IsSeen :=
  labelled_passagesOfAll hkeeps (fun _ hblock _ => isSeen_of_occurs h hblock) [] 0 (List.forall_mem_nil _)
    blocks fun _ => id

end Parsed

end Block

/-! ## Prose behind its lead -/

namespace Block

end Block

end CallDoc
