import CallDoc.Proofs.Results
import CallDoc.Proofs.Section.ItemLine
import CallDoc.Proofs.Text.Unmarked
import CallDoc.Section.Canonical
import Mathlib.Data.List.SplitBy

/-!
Rewriting sections puts no display mark into a docstring: what is written of a section is cut
from its lines, and what stands around it are the fixed words and marks of markup.
-/
namespace CallDoc

open Text

/-- What is written of a heading when its section is prose. -/
def Heading.label : Heading → Text
  | .rubric label => label
  | .admonition name => name
  | _ => []

theorem Heading.unmarked_of_ofTitle? {title : Text} {heading : Heading}
    (h : ofTitle? title = some heading) : Unmarked heading.label := by
  have hnamed : ∀ entry ∈ named, Unmarked entry.2.label := by decide
  obtain ⟨front, back, hentry, -⟩ := List.lookup_eq_some_iff.1 h
  exact hnamed (lowercase title, heading) (by rw [hentry]; simp)

namespace Section

variable {convention : Convention}

/-! ## Items -/

/-- Nothing that an item says has an escape. -/
structure Item.Unmarked (item : Item) : Prop where
  name : Text.Unmarked item.name
  type : Text.Unmarked item.type
  description : UnmarkedLines item.description

theorem unmarked_partition {line : Text} (h : Unmarked line) :
    Unmarked (partition line).1 ∧ ∀ after, (partition line).2 = some after → Unmarked after := by
  unfold partition
  split
  · rename_i before after hsplit
    rw [splitLoneColon?_eq hsplit, unmarked_append, unmarked_cons] at h
    exact ⟨h.1.trim, fun t ht => Option.some.inj ht ▸ h.2.2.trim⟩
  · exact ⟨h.trim, nofun⟩

theorem unmarked_typedName? {t name type : Text} (h : Unmarked t)
    (ht : typedName? t = some (name, type)) : Unmarked name ∧ Unmarked type := by
  unfold typedName? at ht
  split at ht
  · rename_i c inner after hlast
    obtain ⟨⟨u, v⟩, hfirst, hblank⟩ := Option.bind_eq_some_iff.1 ht
    have hc := unmarked_cons.1 (h.of_splitLast? hlast).1
    obtain ⟨hu, hv⟩ := hc.2.of_splitFirst? hfirst
    dsimp only at hblank
    split at hblank
    · cases hblank
    · obtain ⟨rfl, rfl⟩ := Prod.mk.inj (Option.some.inj hblank)
      exact ⟨Unmarked.trimEnd (unmarked_cons.2 ⟨hc.1, hu⟩), hv.trim⟩
  · cases ht

theorem unmarked_escapeStars {t : Text} (h : Unmarked t) : Unmarked (escapeStars t) := by
  unfold escapeStars
  split
  · exact unmarked_append.2 ⟨by decide, h.drop 2⟩
  · exact unmarked_append.2 ⟨by decide, h.drop 1⟩
  · exact h

theorem unmarked_ofLine (convention : Convention) (form : ItemForm) {line : Text}
    (h : Unmarked line) :
    (Item.ofLine convention form line).Unmarked := by
  have hescaped {item : Item} (h : item.Unmarked) : Item.Unmarked
      (if form.prefersType && item.type.isEmpty then
        { item with name := [], type := escapeStars item.name }
      else { item with name := escapeStars item.name }) := by
    split
    · exact ⟨unmarked_nil, unmarked_escapeStars h.name, h.description⟩
    · exact ⟨unmarked_escapeStars h.name, h.type, h.description⟩
  obtain ⟨hbefore, hafter⟩ := unmarked_partition h
  refine hescaped ?_
  cases convention with
  | google =>
    have hdescription : UnmarkedLines [(partition line).2.getD []] := by
      rw [unmarkedLines_cons]
      refine ⟨?_, unmarkedLines_nil⟩
      cases hrest : (partition line).2 with
      | none => exact unmarked_nil
      | some after => exact hafter after hrest
    dsimp only
    cases htyped : (typedName? (partition line).1).filter fun _ => form.typed with
    | none => exact ⟨hbefore, unmarked_nil, hdescription⟩
    | some pair =>
      obtain ⟨hname, htype⟩ := unmarked_typedName? hbefore (Option.filter_eq_some_iff.1 htyped).1
      exact ⟨hname, htype, hdescription⟩
  | numpy =>
    dsimp only
    split
    · refine ⟨hbefore, ?_, unmarkedLines_nil⟩
      cases hrest : (partition line).2 with
      | none => exact unmarked_nil
      | some after => exact hafter after hrest
    · exact ⟨h.trim, unmarked_nil, unmarkedLines_nil⟩

/-! ## Taking lines -/

section Take

variable (convention : Convention) (body? : Option Nat) {lines : List Text}
  (h : UnmarkedLines lines)
include h

theorem unmarked_takeEmpty :
    UnmarkedLines (takeEmpty lines).1 ∧ UnmarkedLines (takeEmpty lines).2 :=
  unmarkedLines_append.1 (by rwa [takeEmpty_append])

theorem unmarked_takeUnbroken : UnmarkedLines (takeUnbroken convention body? lines).1 ∧
    UnmarkedLines (takeUnbroken convention body? lines).2 :=
  unmarkedLines_append.1 (by rwa [takeUnbroken_append])

theorem unmarked_takeIndented (n : Nat) :
    UnmarkedLines (takeIndented convention body? n lines).1 ∧
      UnmarkedLines (takeIndented convention body? n lines).2 :=
  unmarkedLines_append.1 (by rwa [takeIndented_append])

theorem unmarked_takeSection : UnmarkedLines (takeSection convention body? lines).1 ∧
    UnmarkedLines (takeSection convention body? lines).2 := by
  obtain ⟨hbody, hrest⟩ := unmarked_takeUnbroken convention body? (unmarked_takeEmpty h).2
  obtain ⟨hgap, hrest⟩ := unmarked_takeEmpty hrest
  exact ⟨unmarkedLines_append.2 ⟨hbody, hgap⟩, hrest⟩

theorem unmarked_takeParagraph : UnmarkedLines (takeParagraph convention lines).1 ∧
    UnmarkedLines (takeParagraph convention lines).2 :=
  unmarkedLines_append.1 (by rwa [takeParagraph_append])

end Take

/-- What is written of the opening of a section. -/
def Opening.label : Opening → Text
  | .heading h => h.label
  | .index line => line

theorem unmarked_opening? {lines below : List Text} {opening : Opening} (h : UnmarkedLines lines)
    (hopen : opening? convention lines = some (opening, below)) :
    Unmarked opening.label ∧ UnmarkedLines below := by
  unfold opening? at hopen
  split at hopen
  · cases hopen
  · rename_i line rest
    obtain ⟨hline, hrest⟩ := unmarkedLines_cons.1 h
    split at hopen
    · obtain ⟨heading, hheading, hopen⟩ := Option.bind_eq_some_iff.1 hopen
      obtain ⟨title, -, htitle⟩ := Option.bind_eq_some_iff.1 hheading
      split at hopen
      · obtain ⟨rfl, rfl⟩ := Prod.mk.inj (Option.some.inj hopen)
        exact ⟨Heading.unmarked_of_ofTitle? htitle, hrest⟩
      · cases hopen
    · split at hopen
      · rename_i heading underline below' htitle
        split at hopen
        · obtain ⟨rfl, rfl⟩ := Prod.mk.inj (Option.some.inj hopen)
          exact ⟨Heading.unmarked_of_ofTitle? htitle, (unmarkedLines_cons.1 hrest).2⟩
        · cases hopen
      · split at hopen
        · obtain ⟨rfl, rfl⟩ := Prod.mk.inj (Option.some.inj hopen)
          exact ⟨hline, hrest⟩
        · cases hopen

theorem unmarked_takeItem (convention : Convention) (body? : Option Nat) (form : ItemForm)
    {line : Text} {below : List Text} (hline : Unmarked line) (hbelow : UnmarkedLines below) :
    (takeItem convention body? form line below).1.Unmarked ∧
      UnmarkedLines (takeItem convention body? form line below).2 := by
  obtain ⟨hbody, hrest⟩ := unmarked_takeIndented convention body? hbelow (indent line + 1)
  have hitem := unmarked_ofLine convention form hline
  exact ⟨⟨hitem.name, hitem.type, unmarkedLines_append.2 ⟨hitem.description, hbody.dedent⟩⟩, hrest⟩

theorem unmarked_takeItems (convention : Convention) (body? : Option Nat) (form : ItemForm)
    {lines : List Text} (h : UnmarkedLines lines) :
    (∀ item ∈ (takeItems convention body? form lines).1, item.Unmarked) ∧
      UnmarkedLines (takeItems convention body? form lines).2 := by
  fun_induction takeItems convention body? form lines with
  | case1 => exact ⟨List.forall_mem_nil _, h⟩
  | case2 => exact ⟨List.forall_mem_nil _, h⟩
  | case3 line below hbreak first rest ih =>
    obtain ⟨hline, hbelow⟩ := unmarkedLines_cons.1 h
    obtain ⟨hfirst, hafter⟩ := unmarked_takeItem convention body? form hline hbelow
    obtain ⟨hitems, hrest⟩ := ih hafter
    exact ⟨List.forall_mem_cons.2 ⟨hfirst, hitems⟩, hrest⟩

theorem unmarked_returned? {lines : List Text} (h : UnmarkedLines lines) {item : Item}
    (hitem : returned? lines = some item) : item.Unmarked := by
  have hlines := h.dedent
  unfold returned? at hitem
  split at hitem
  · cases hitem
  · rename_i first more hfirst
    rw [hfirst] at hlines
    obtain ⟨hline, hmore⟩ := unmarkedLines_cons.1 hlines
    obtain ⟨htype, hafter⟩ := unmarked_partition hline
    split at hitem
    · obtain rfl := Option.some.inj hitem
      exact ⟨unmarked_nil, unmarked_nil, hlines⟩
    · rename_i type after hpartition
      obtain rfl := Option.some.inj hitem
      rw [hpartition] at htype hafter
      refine ⟨unmarked_nil, htype, ?_⟩
      split
      · exact hmore
      · exact unmarkedLines_cons.2 ⟨hafter after rfl, hmore⟩

/-- Nothing in a part has an escape. -/
def Part.Unmarked : Part → Prop
  | .plain lines => UnmarkedLines lines
  | .items heading entries => Text.Unmarked heading.label ∧ ∀ item ∈ entries, item.Unmarked
  | .value heading entry => Text.Unmarked heading.label ∧ ∀ item ∈ entry, item.Unmarked
  | .prose heading lines => Text.Unmarked heading.label ∧ UnmarkedLines lines

theorem unmarked_takeBody {heading : Heading} (hheading : Text.Unmarked heading.label)
    {lines : List Text} (h : UnmarkedLines lines) :
    (takeBody convention heading lines).1.Unmarked ∧
      UnmarkedLines (takeBody convention heading lines).2 := by
  unfold takeBody
  dsimp only
  split
  · rename_i form _
    obtain ⟨hitems, hrest⟩ := unmarked_takeItems convention
      (some ((firstIndent? lines).getD 0)) form (unmarked_takeEmpty h).2
    exact ⟨⟨hheading, hitems⟩, hrest⟩
  · obtain ⟨hprose, hrest⟩ := unmarked_takeSection convention
      (some ((firstIndent? lines).getD 0)) h
    split
    · exact ⟨⟨hheading, fun _ hitem => unmarked_returned? hprose hitem⟩, hrest⟩
    · exact ⟨⟨hheading, fun _ hitem => unmarked_returned? hprose hitem⟩, hrest⟩
    · exact ⟨⟨hheading, hprose⟩, hrest⟩

theorem unmarked_nextPart (convention : Convention) (started : Bool) {lines : List Text}
    (h : UnmarkedLines lines) :
    (nextPart convention started lines).1.Unmarked ∧
      UnmarkedLines (nextPart convention started lines).2 := by
  unfold nextPart
  split
  · rename_i heading below hopen
    obtain ⟨hheading, hbelow⟩ := unmarked_opening? h hopen
    exact unmarked_takeBody hheading hbelow
  · rename_i line below hopen
    obtain ⟨hline, hbelow⟩ := unmarked_opening? h hopen
    obtain ⟨hbody, hrest⟩ := unmarked_takeSection convention
      (some ((firstIndent? below).getD 0)) hbelow
    exact ⟨unmarkedLines_cons.2 ⟨hline, hbody⟩, hrest⟩
  · dsimp only
    split
    · exact unmarked_takeSection convention none h
    · exact unmarked_takeParagraph convention h

/-! ## Layout -/

section Layout

variable {lead : Text} {lines : List Text} {item : Item} {items : List Item}

theorem unmarked_hangLines (hlead : Unmarked lead) (h : UnmarkedLines lines) :
    UnmarkedLines (hangLines lead lines) := by
  cases lines with
  | nil => exact unmarkedLines_cons.2 ⟨hlead, unmarkedLines_nil⟩
  | cons first more =>
    obtain ⟨hfirst, hmore⟩ := unmarkedLines_cons.1 h
    refine unmarkedLines_cons.2 ⟨(unmarked_append.2 ⟨hlead, hfirst⟩).trimEnd, hmore.map ?_⟩
    intro line hline
    split
    · exact unmarked_nil
    · exact unmarked_append.2 ⟨unmarked_spaces _, hline⟩

theorem unmarked_hangable (h : UnmarkedLines lines) : UnmarkedLines (hangable lines) := by
  unfold hangable
  split
  · exact unmarkedLines_cons.2 ⟨unmarked_nil, h⟩
  · split
    · obtain ⟨hfirst, hmore⟩ := unmarkedLines_cons.1 h
      split
      · split
        · exact unmarkedLines_cons.2 ⟨unmarked_nil, h⟩
        · exact unmarkedLines_cons.2 ⟨unmarked_nil, unmarkedLines_cons.2 ⟨hfirst, hmore.pad 4⟩⟩
      · exact h
    · exact unmarkedLines_nil

@[simp] theorem unmarked_fieldMark {role name : Text} :
    Unmarked (fieldMark role name) ↔ Unmarked role ∧ Unmarked name := by
  simp [fieldMark]

theorem unmarked_paramFields {role typeRole : Text} (hrole : Unmarked role)
    (htype : Unmarked typeRole) (h : item.Unmarked) :
    UnmarkedLines (paramFields role typeRole item) := by
  have hmark : Unmarked (fieldMark role item.name ++ [' ']) := by simp [hrole, h.name]
  rw [paramFields, unmarkedLines_append]
  constructor
  · split
    · simp [hrole, h.name]
    · exact unmarked_hangLines hmark (unmarked_hangable h.description.stripEmpty)
  · split
    · exact unmarkedLines_nil
    · simp [htype, h.name, h.type]

theorem unmarked_flatMap {f : Item → List Text} (h : ∀ item ∈ items, item.Unmarked)
    (hf : ∀ item, item.Unmarked → UnmarkedLines (f item)) : UnmarkedLines (items.flatMap f) :=
  fun line hline => by
    obtain ⟨item, hitem, hline⟩ := List.mem_flatMap.1 hline
    exact hf item (h item hitem) line hline

theorem unmarked_paramList {role typeRole : Text} (hrole : Unmarked role)
    (htype : Unmarked typeRole) (h : ∀ item ∈ items, item.Unmarked) :
    UnmarkedLines (paramList role typeRole items) := by
  rw [paramList, unmarkedLines_append]
  exact ⟨unmarked_flatMap h fun _ => unmarked_paramFields hrole htype, by simp⟩

theorem unmarked_itemHead {name type : Text} (hname : Unmarked name) (htype : Unmarked type) :
    Unmarked (itemHead name type) := by
  have hemphasized : Unmarked (emphasizedType type) := by
    rw [emphasizedType]
    split <;> simp [htype]
  rw [itemHead]
  split <;> split <;> simp [hname, hemphasized]

theorem unmarked_itemProse {name type : Text} (hname : Unmarked name) (htype : Unmarked type)
    (h : UnmarkedLines lines) : UnmarkedLines (itemProse name type lines) := by
  have hhead := unmarked_itemHead hname htype
  have hlead : Unmarked (if (itemHead name type).isEmpty then [] else
      itemHead name type ++ " -- ".toList) := by
    split <;> simp [hhead]
  have hlines := unmarked_hangable h.stripEmpty
  unfold itemProse
  dsimp only
  split
  · exact unmarkedLines_cons.2 ⟨hhead, unmarkedLines_nil⟩
  · rename_i first more hfirst
    rw [hfirst] at hlines
    split
    · exact unmarkedLines_cons.2 ⟨hlead, hlines⟩
    · rw [unmarkedLines_cons] at hlines ⊢
      exact ⟨unmarked_append.2 ⟨hlead, hlines.1⟩, hlines.2⟩

theorem unmarked_closeField (h : UnmarkedLines lines) : UnmarkedLines (closeField lines) := by
  rw [closeField]
  split
  · simp [h]
  · exact h

theorem unmarked_hangItems {others : Text} (hlead : Unmarked lead) (hothers : Unmarked others)
    {prose : List (List Text)} (h : ∀ lines ∈ prose, UnmarkedLines lines) :
    UnmarkedLines (hangItems lead others prose) := by
  cases prose with
  | nil => exact unmarkedLines_nil
  | cons first more =>
    obtain ⟨hfirst, hmore⟩ := List.forall_mem_cons.1 h
    refine unmarkedLines_append.2 ⟨unmarked_hangLines hlead hfirst, fun line hline => ?_⟩
    obtain ⟨lines, hlines, hline⟩ := List.mem_flatMap.1 hline
    exact unmarked_hangLines hothers (hmore lines hlines) line hline

theorem unmarked_prose (h : ∀ item ∈ items, item.Unmarked) :
    ∀ lines ∈ items.map fun item => itemProse item.name item.type item.description,
      UnmarkedLines lines :=
  List.forall_mem_map.2 fun item hitem =>
    unmarked_itemProse (h item hitem).name (h item hitem).type (h item hitem).description

theorem unmarked_fieldOfItems {title : Text} (htitle : Unmarked title)
    (h : ∀ item ∈ items, item.Unmarked) : UnmarkedLines (fieldOfItems title items) := by
  refine unmarked_closeField ?_
  split <;> exact unmarked_hangItems (by simp [htitle]) (by simp [htitle]) (unmarked_prose h)

theorem unmarked_returnFields (h : ∀ item ∈ items, item.Unmarked) :
    UnmarkedLines (returnFields items) := by
  unfold returnFields
  split
  · exact unmarkedLines_nil
  · rename_i item
    have hitem := h item (List.mem_singleton_self item)
    have hfield : UnmarkedLines (hangLines ":returns: ".toList _) :=
      unmarked_hangLines (by decide)
        (unmarked_itemProse hitem.name unmarked_nil hitem.description)
    refine unmarked_closeField ?_
    split
    · exact hfield
    · exact unmarkedLines_append.2 ⟨hfield, by simp [hitem.type]⟩
  · exact unmarked_closeField (unmarked_hangItems (by decide) (by decide) (unmarked_prose h))

theorem unmarked_attributeFields (h : ∀ item ∈ items, item.Unmarked) :
    UnmarkedLines (attributeFields items) := by
  rw [attributeFields, unmarkedLines_append]
  refine ⟨unmarked_flatMap h fun item hitem => ?_, by simp⟩
  have hmark : Unmarked (fieldMark "ivar".toList item.name ++ [' ']) := by simp [hitem.name]
  rw [unmarkedLines_append]
  refine ⟨unmarked_hangLines hmark hitem.description, ?_⟩
  split
  · exact unmarkedLines_nil
  · simp [hitem.name, hitem.type]

theorem unmarked_methodDirectives (h : ∀ item ∈ items, item.Unmarked) :
    UnmarkedLines (methodDirectives items) := by
  refine unmarked_flatMap h fun item hitem => ?_
  split <;> simp [hitem.name, hitem.description.pad 3]

/-- Nothing that is known of an object has an escape. -/
structure ObjectName.Unmarked (object : ObjectName) : Prop where
  role : ∀ role, object.role = some role → Text.Unmarked role
  name : Text.Unmarked object.name

theorem unmarked_objectName? {line rest : Text} {object : ObjectName} (h : Unmarked line)
    (hobject : objectName? line = some (object, rest)) : object.Unmarked ∧ Unmarked rest := by
  obtain ⟨⟨object, rest⟩, hplain, he⟩ := Option.map_eq_some_iff.1 hobject
  obtain ⟨rfl, rfl⟩ := Prod.mk.inj he
  suffices hparts : object.Unmarked ∧ Unmarked rest from ⟨hparts.1, hparts.2.trimStart⟩
  have hstart := h.trimStart
  unfold plainObjectName? at hplain
  split at hplain
  · rename_i t htext
    rw [htext, unmarked_cons] at hstart
    dsimp only at hplain
    split at hplain
    · cases hplain
    · rename_i inner hinner
      have hname := (hstart.2.dropWhile isWordCharacter).of_after? hinner
      split at hplain
      · rename_i after hafter
        have hrest := hname.dropWhile isObjectCharacter
        rw [hafter, unmarked_cons] at hrest
        split at hplain
        · cases hplain
        · obtain ⟨rfl, rfl⟩ := Prod.mk.inj (Option.some.inj hplain)
          refine ⟨⟨fun role hrole => ?_, hname.takeWhile _⟩, hrest.2⟩
          exact Option.some.inj hrole ▸ hstart.2.takeWhile isWordCharacter
      · cases hplain
  · dsimp only at hplain
    split at hplain
    · cases hplain
    · obtain ⟨rfl, rfl⟩ := Prod.mk.inj (Option.some.inj hplain)
      exact ⟨⟨nofun, hstart.takeWhile _⟩, hstart.dropWhile _⟩

theorem unmarked_errorField (h : item.Unmarked) : Unmarked (errorField item) := by
  have hname : Unmarked (errorName item.type) := by
    unfold errorName
    split
    · rename_i hobject
      exact (unmarked_objectName? h.type hobject).1.name
    · exact h.type
  have hlead : Unmarked
      (if (errorName item.type).isEmpty then [] else ' ' :: errorName item.type) := by
    split <;> simp [hname]
  have hdescription : Unmarked (if (described item).isEmpty then []
      else ' ' :: joinWith "\n    ".toList (described item)) := by
    split
    · exact unmarked_nil
    · exact unmarked_cons.2 ⟨by decide, Unmarked.joinWith (by decide) h.description.stripEmpty⟩
  exact unmarked_append.2
    ⟨unmarked_append.2 ⟨by decide, hlead⟩, unmarked_cons.2 ⟨by decide, hdescription⟩⟩

theorem unmarked_errorFields (h : ∀ item ∈ items, item.Unmarked) :
    UnmarkedLines (errorFields items) := by
  rw [errorFields]
  split
  · exact unmarkedLines_nil
  · rw [unmarkedLines_append]
    exact ⟨List.forall_mem_map.2 fun item hitem => unmarked_errorField (h item hitem), by simp⟩

theorem unmarked_admonition {name : Text} (hname : Unmarked name) (h : UnmarkedLines lines) :
    UnmarkedLines (admonition name lines) := by
  have hlines := h.stripEmpty
  unfold admonition
  dsimp only
  split
  · simp [hname]
  · rename_i line hline
    rw [hline, unmarkedLines_cons] at hlines
    simp [hname, hlines.1.trim]
  · simp [hname, hlines.dedent.pad 3]

theorem unmarked_rubric {label : Text} (hlabel : Unmarked label) (h : UnmarkedLines lines) :
    UnmarkedLines (rubric label lines) := by
  have hlines := h.stripEmpty.dedent
  rw [rubric, unmarkedLines_append]
  refine ⟨by simp [hlabel], ?_⟩
  split
  · exact unmarkedLines_nil
  · simp [hlines]

end Layout

/-! ## Related objects -/

section Related

/-- Nothing that an entry says has an escape. -/
structure Related.Unmarked (entry : Related) : Prop where
  object : entry.object.Unmarked
  description : UnmarkedLines entry.description

/-- Nothing that was read has an escape. -/
structure RelatedScan.Unmarked (scan : RelatedScan) : Prop where
  entries : ∀ entry ∈ scan.entries, entry.Unmarked
  current : ∀ text, scan.current = some text → Text.Unmarked text
  description : UnmarkedLines scan.description

theorem RelatedScan.unmarked_begin? {text : Text} {description : List Text} {entry : Related}
    (h : Text.Unmarked text) (hdescription : UnmarkedLines description)
    (hentry : begin? text description = some entry) : entry.Unmarked := by
  obtain ⟨⟨object, rest⟩, hobject, rfl⟩ := Option.map_eq_some_iff.1 hentry
  exact ⟨(unmarked_objectName? h hobject).1, hdescription⟩

theorem RelatedScan.unmarked_finish? {scan next : RelatedScan} (h : scan.Unmarked)
    (hnext : scan.finish? = some next) : next.Unmarked := by
  unfold finish? at hnext
  split at hnext
  · obtain rfl := Option.some.inj hnext
    exact h
  · rename_i text hcurrent
    obtain ⟨entry, hentry, rfl⟩ := Option.map_eq_some_iff.1 hnext
    have hdescription : UnmarkedLines scan.description.reverse :=
      h.description.of_subset fun _ => List.mem_reverse.1
    have hfirst := unmarked_begin? (h.current text hcurrent) hdescription hentry
    exact ⟨List.forall_mem_cons.2 ⟨hfirst, h.entries⟩, nofun, unmarkedLines_nil⟩

theorem RelatedScan.unmarked_named? {line text description : Text} (h : Text.Unmarked line)
    (hnamed : named? line = some (text, description)) :
    Text.Unmarked text ∧ Text.Unmarked description := by
  obtain ⟨⟨object, rest⟩, hobject, hnamed⟩ := Option.bind_eq_some_iff.1 hnamed
  have hrest := (unmarked_objectName? h hobject).2
  dsimp only at hnamed
  split at hnamed
  · obtain ⟨⟨before, after⟩, hsplit, he⟩ := Option.map_eq_some_iff.1 hnamed
    obtain ⟨rfl, rfl⟩ := Prod.mk.inj he
    exact ⟨h.take _, (hrest.of_splitFirst? hsplit).2.trim⟩
  · cases hnamed

theorem RelatedScan.unmarked_step? {scan next : RelatedScan} {line : Text} (h : scan.Unmarked)
    (hline : Text.Unmarked line) (hnext : scan.step? line = some next) : next.Unmarked := by
  unfold step? at hnext
  split at hnext
  · obtain rfl := Option.some.inj hnext
    exact h
  · split at hnext
    · rename_i text description hnamed
      obtain ⟨finished, hfinish, rfl⟩ := Option.map_eq_some_iff.1 hnext
      obtain ⟨htext, hdescription⟩ := unmarked_named? hline hnamed
      refine ⟨(unmarked_finish? h hfinish).entries, fun t ht => Option.some.inj ht ▸ htext, ?_⟩
      dsimp only
      split
      · exact unmarkedLines_nil
      · exact unmarkedLines_cons.2 ⟨hdescription, unmarkedLines_nil⟩
    · split at hnext
      · obtain ⟨finished, hfinish, hnext⟩ := Option.bind_eq_some_iff.1 hnext
        have hfinished := unmarked_finish? h hfinish
        split at hnext
        · obtain ⟨entries, hentries, rfl⟩ := Option.map_eq_some_iff.1 hnext
          refine ⟨fun entry hentry => ?_, hfinished.current, hfinished.description⟩
          rcases List.mem_append.1 hentry with hentry | hentry
          · obtain ⟨text, htext, hbegin⟩ := exists_of_mem_mapM hentries (List.mem_reverse.1 hentry)
            exact unmarked_begin? (hline.splitOn ',' text (List.mem_filter.1 htext).1)
              unmarkedLines_nil hbegin
          · exact hfinished.entries entry hentry
        · obtain rfl := Option.some.inj hnext
          exact ⟨hfinished.entries, fun t ht => Option.some.inj ht ▸ hline, hfinished.description⟩
      · split at hnext
        · obtain rfl := Option.some.inj hnext
          exact ⟨h.entries, h.current, unmarkedLines_cons.2 ⟨hline.trim, h.description⟩⟩
        · obtain rfl := Option.some.inj hnext
          exact h

theorem RelatedScan.unmarked_foldlM {lines : List Text} (h : UnmarkedLines lines)
    {scan last : RelatedScan} (hscan : scan.Unmarked)
    (hlast : lines.foldlM RelatedScan.step? scan = some last) : last.Unmarked := by
  induction lines generalizing scan with
  | nil =>
    obtain rfl := Option.some.inj hlast
    exact hscan
  | cons line lines ih =>
    obtain ⟨hline, hlines⟩ := unmarkedLines_cons.1 h
    rw [List.foldlM_cons] at hlast
    obtain ⟨next, hnext, hlast⟩ := Option.bind_eq_some_iff.1 hlast
    exact ih hlines (unmarked_step? hscan hline hnext) hlast

theorem unmarked_related? {lines : List Text} {entries : List Related} (h : UnmarkedLines lines)
    (hentries : related? lines = some entries) : ∀ entry ∈ entries, entry.Unmarked := by
  obtain ⟨scan, hscan, rfl⟩ := Option.map_eq_some_iff.1 hentries
  obtain ⟨last, hlast, hfinish⟩ := Option.bind_eq_some_iff.1 hscan
  have hempty : RelatedScan.empty.Unmarked := ⟨nofun, nofun, unmarkedLines_nil⟩
  have hfinished :=
    RelatedScan.unmarked_finish? (RelatedScan.unmarked_foldlM h hempty hlast) hfinish
  exact fun entry hentry => hfinished.entries entry (List.mem_reverse.1 hentry)

theorem ObjectName.Unmarked.link {object : ObjectName} (h : object.Unmarked) :
    Text.Unmarked object.link := by
  have hrole : Text.Unmarked (object.role.getD "obj".toList) := by
    cases hrole : object.role with
    | none => decide
    | some role => exact h.role role hrole
  simp only [ObjectName.link, unmarked_append, unmarked_cons, hrole, h.name]
  decide

theorem Related.Unmarked.below {entry : Related} (h : entry.Unmarked) :
    UnmarkedLines entry.below := by
  rw [Related.below]
  split
  · exact unmarkedLines_nil
  · simp [Unmarked.joinWith (by decide : Text.Unmarked [' ']) h.description]

theorem unmarked_relatedAdmonition {entries : List Related}
    (h : ∀ entry ∈ entries, entry.Unmarked) : UnmarkedLines (relatedAdmonition entries) := by
  rw [relatedAdmonition]
  split
  · exact unmarkedLines_nil
  · refine unmarked_admonition (by decide) fun line hline => ?_
    obtain ⟨group, hgroup, hline⟩ := List.mem_flatMap.1 hline
    have hall : ∀ entry ∈ group, entry.Unmarked := fun entry hentry =>
      h entry (by
        rw [← List.flatten_splitBy (fun a b => a.description.isEmpty && b.description.isEmpty)
          entries]
        exact List.mem_flatten.2 ⟨group, hgroup, hentry⟩)
    have hlinks : UnmarkedLines (group.map fun e => e.object.link) :=
      List.forall_mem_map.2 fun entry hentry => (hall entry hentry).object.link
    rcases List.mem_cons.1 hline with rfl | hline
    · exact unmarked_nil
    · rcases List.mem_cons.1 hline with rfl | hline
      · exact Unmarked.joinWith (by decide) hlinks
      · obtain ⟨entry, hentry, hline⟩ := List.mem_flatMap.1 hline
        exact (hall entry hentry).below line hline

end Related

/-! ## Canonical lines -/

theorem unmarked_itemLines {items : List Item} (h : ∀ item ∈ items, item.Unmarked)
    (heading : Heading) : UnmarkedLines (itemLines items heading) := by
  cases heading with
  | parameters => exact unmarked_paramList (by decide) (by decide) h
  | keywordArguments => exact unmarked_paramList (by decide) (by decide) h
  | otherParameters => exact unmarked_fieldOfItems (by decide) h
  | attributes => exact unmarked_attributeFields h
  | methods => exact unmarked_methodDirectives h
  | raises => exact unmarked_errorFields h
  | returns => exact unmarked_returnFields h
  | warns => exact unmarked_fieldOfItems (by decide) h
  | yields => exact unmarked_fieldOfItems (by decide) h
  | seeAlso | rubric | admonition => exact unmarkedLines_nil

theorem unmarked_proseLines {lines : List Text} (h : UnmarkedLines lines) {heading : Heading}
    (hheading : Unmarked heading.label) : UnmarkedLines (proseLines convention lines heading) := by
  cases heading with
  | rubric label => exact unmarked_rubric hheading h
  | admonition name => exact unmarked_admonition hheading h
  | seeAlso =>
    have hplain : UnmarkedLines (admonition "seealso".toList lines) :=
      unmarked_admonition (by decide) h
    cases convention with
    | google => exact hplain
    | numpy =>
      cases hentries : related? lines with
      | none => simpa only [proseLines, hentries] using hplain
      | some entries =>
        simpa only [proseLines, hentries] using
          unmarked_relatedAdmonition (unmarked_related? h hentries)
  | _ => exact unmarkedLines_nil

theorem Part.Unmarked.mapDescriptions {part : Part} (h : part.Unmarked)
    {f : List Text → List Text} (hf : ∀ lines, UnmarkedLines lines → UnmarkedLines (f lines)) :
    (part.mapDescriptions f).Unmarked := by
  have hitem {item : Item} (h : item.Unmarked) : (Item.mapDescription f item).Unmarked :=
    ⟨h.name, h.type, hf _ h.description⟩
  cases part with
  | plain | prose => exact h
  | items heading entries =>
    refine ⟨h.1, fun item hmem => ?_⟩
    obtain ⟨other, hother, rfl⟩ := List.mem_map.1 (List.mem_filter.1 hmem).1
    exact hitem (h.2 other hother)
  | value heading entry =>
    refine ⟨h.1, fun item hmem => ?_⟩
    obtain ⟨other, hother, rfl⟩ := Option.map_eq_some_iff.1 hmem
    exact hitem (h.2 other hother)

theorem Part.Unmarked.lines {part : Part} (h : part.Unmarked) :
    UnmarkedLines (part.lines convention) := by
  cases part with
  | plain => exact h
  | items heading entries => exact unmarked_itemLines h.2 heading
  | value heading entry =>
    exact unmarked_itemLines (fun item hitem => h.2 item (Option.mem_toList.1 hitem)) heading
  | prose heading lines => exact unmarked_proseLines h.2 h.1

theorem unmarked_canonicalParts {inner : List Text → List Text}
    (hinner : ∀ lines, UnmarkedLines lines → UnmarkedLines (inner lines)) (started : Bool)
    {lines : List Text} (h : UnmarkedLines lines) :
    UnmarkedLines (canonicalParts convention inner started lines) := by
  fun_induction canonicalParts convention inner started lines with
  | case1 => exact unmarkedLines_nil
  | case2 started line below part written ih =>
    obtain ⟨hpart, hrest⟩ := unmarked_nextPart convention started h
    exact unmarkedLines_append.2 ⟨(hpart.mapDescriptions hinner).lines, ih hrest⟩

/-- Only the lines that there were can bring an escape into the canonical form. -/
theorem unmarked_canonical {lines : List Text} (h : UnmarkedLines lines) :
    UnmarkedLines (canonical convention lines) := by
  induction hn : lines.length using Nat.strongRecOn generalizing lines with
  | ind n ih =>
    have htrimmed : UnmarkedLines (lines.map trimEnd) := h.map fun _ hline => hline.trimEnd
    obtain ⟨hlead, hrest⟩ := unmarked_takeEmpty htrimmed
    rw [canonical]
    refine unmarkedLines_append.2 ⟨hlead, unmarked_canonicalParts (fun lines hlines => ?_) _ hrest⟩
    split
    · rename_i hshorter
      exact ih lines.length (hn ▸ hshorter) hlines rfl
    · exact unmarkedLines_nil

end Section

theorem unmarked_canonicalText {convention : Convention} {t : Text} (h : Unmarked t) :
    Unmarked (Section.canonicalText convention t) :=
  (Section.unmarked_canonical h.trimmedLines).unlines

theorem Conventions.unmarked_normalize (conventions : Conventions) {t : Text} (h : Unmarked t) :
    Unmarked (conventions.normalize t) := by
  obtain ⟨google, numpy⟩ := conventions
  cases google <;> cases numpy
  · exact h
  · exact unmarked_canonicalText h
  · exact unmarked_canonicalText h
  · exact unmarked_canonicalText (unmarked_canonicalText h)

end CallDoc
