import CallDoc.Proofs.Cache.History

/-!
What a memory answers after a history. It reads a text like its keeper, the reader that read
the text first, and like the asking reader when there is none. A memory that belongs to one
reader is therefore not to be told from none; one that is shared answers like the asking
reader exactly when the keeper reads the text alike.
-/
namespace CallDoc.DocCache

variable {cache : DocCache} {history : List Operation} {reader keeper : DocReader} {t : Text}

theorem read_of_find? {doc : Doc} (h : cache.find? t = some doc) :
    (cache.read reader t).1 = .ok doc := by
  rw [read, h]

theorem read_of_not_found (h : cache.find? t = none) :
    (cache.read reader t).1 = reader.readText t := by
  rw [read, h]
  dsimp only
  split
  · rename_i hread
    exact hread.symm
  · rename_i hread
    exact hread.symm

/-- A text that cannot be read leaves no trace. -/
theorem read_snd_of_error {e : Error} (h : reader.readText t = .error e) :
    (cache.read reader t).2 = cache := by
  unfold read
  split
  · rfl
  · rw [h]

theorem read_of_keptBy (h : KeptBy t keeper history) :
    ((after history).read reader t).1 = keeper.readText t := by
  have ⟨_, _, _, _, ⟨_, _, doc, hdoc⟩, _⟩ := h
  rw [read_of_find? (find?_after_eq_some_iff.2 ⟨keeper, h, hdoc⟩), hdoc]

theorem read_of_not_known (h : ¬ Known t history) :
    ((after history).read reader t).1 = reader.readText t :=
  read_of_not_found (Option.not_isSome_iff_eq_none.1 fun hfind => h (isSome_find?_after.1 hfind))

/-- A text that is known has a keeper. -/
theorem exists_keptBy (h : Known t history) : ∃ keeper, KeptBy t keeper history := by
  obtain ⟨doc, hdoc⟩ := Option.isSome_iff_exists.1 (isSome_find?_after.2 h)
  obtain ⟨keeper, hkeeper, -⟩ := find?_after_eq_some_iff.1 hdoc
  exact ⟨keeper, hkeeper⟩

/-! ## The memory of one reader -/

/-- No other reader reads anything in the operation. -/
def Operation.ReadsBy (reader : DocReader) (op : Operation) : Prop :=
  ∀ other t, op.reads? = some (other, t) → other = reader

/-- The right answer to an operation after a history in which one reader reads everything:
what would be answered without a memory, and of the memory itself, what is known. -/
def Operation.Answers (reader : DocReader) (history : List Operation) : Operation → Answer → Prop
  | .read _ t, .doc result => result = reader.read (some t)
  | .describe a doc? specs, .signature result => result = a.signature doc? specs
  | .find t, .found doc? =>
    (doc?.isSome = true ↔ Known t history) ∧
      ∀ doc, doc? = some doc → reader.read (some t) = .ok doc
  | .evict t, .evicted present => present = true ↔ Known t history
  | .clear, .cleared => True
  | _, _ => False

section OneReader

variable (h : ∀ op ∈ history, op.ReadsBy reader)

include h

theorem eq_of_keptBy (hkeeper : KeptBy t keeper history) : keeper = reader := by
  obtain ⟨past, op, later, rfl, ⟨-, hreads, -⟩, -⟩ := hkeeper
  exact h op (by simp) keeper t hreads

theorem read_after (t : Text) : ((after history).read reader t).1 = reader.readText t := by
  by_cases hknown : Known t history
  · obtain ⟨keeper, hkeeper⟩ := exists_keptBy hknown
    rw [read_of_keptBy hkeeper, eq_of_keptBy h hkeeper]
  · exact read_of_not_known hknown

theorem find?_after {doc : Doc} (hfind : (after history).find? t = some doc) :
    reader.readText t = .ok doc := by
  obtain ⟨keeper, hkeeper, hdoc⟩ := find?_after_eq_some_iff.1 hfind
  rw [← eq_of_keptBy h hkeeper, hdoc]

/-- A memory that one reader alone uses answers like none, whatever happened to it: every
reading and every description is what it would be without it, only readings that succeed
change it, and it holds the texts that were read since they were last forgotten. -/
theorem answers_after (op : Operation) (hop : op.ReadsBy reader) :
    op.Answers reader history ((after history).run op).1 ∧
      (∀ t e, op.reads? = some (reader, t) → reader.read (some t) = .error e →
        ((after history).run op).2 = after history) ∧
      ((after history).size : ℕ∞) = {t | Known t history}.encard := by
  refine ⟨?_, fun t e hreads herror => ?_, size_after history⟩
  · cases op with
    | read other t =>
      obtain rfl := hop other t rfl
      exact read_after h t
    | find t => exact ⟨isSome_find?_after, fun doc hfind => find?_after h hfind⟩
    | evict t => exact isSome_find?_after
    | clear => trivial
    | describe a doc? specs =>
      cases doc? with
      | none => rfl
      | some t =>
        obtain rfl := hop a.reader t rfl
        change ((after history).read a.reader t).1.bind (a.describe specs) = _
        rw [read_after h t]
        rfl
  · cases op with
    | read other u =>
      cases hreads
      exact read_snd_of_error herror
    | describe a doc? specs =>
      cases doc? with
      | none => cases hreads
      | some u =>
        cases hreads
        exact read_snd_of_error herror
    | find | evict | clear => cases hreads

end OneReader

/-- A text is known that was read for a description, though the description failed; the text
that was read before it is forgotten. -/
theorem answers_after_describe :
    let a : Assembler := ⟨.standard, Registry.standard.namespaceOf, .empty⟩
    let history : List Operation := [.read .standard ['A'],
      .describe a (some ['B']) [⟨['_'], none, false, false⟩], .evict ['A']]
    (∀ op ∈ history, op.ReadsBy .standard) ∧
      Operation.Answers .standard history (.find ['B']) (.found (some ⟨['B'], ['B'], [], []⟩)) ∧
      Operation.Answers .standard history (.evict ['A']) (.evicted false) ∧
      1 = {t | Known t history}.encard := by
  intro a history
  have h : ∀ op ∈ history, op.ReadsBy .standard := by
    simp [history, Operation.ReadsBy, Operation.reads?, a]
  have hfind : ((after history).find? ['B'], ((after history).evict ['A']).1,
      (after history).size) = (some ⟨['B'], ['B'], [], []⟩, false, 1) := by
    simp only [history, a]
    decide +kernel
  obtain ⟨hfound, hrest⟩ := Prod.mk.inj hfind
  obtain ⟨hevicted, hsize⟩ := Prod.mk.inj hrest
  obtain ⟨hanswer, -, hcount⟩ := answers_after h (.find ['B']) nofun
  refine ⟨h, congrArg Answer.found hfound ▸ hanswer,
    congrArg Answer.evicted hevicted ▸ (answers_after h (.evict ['A']) nofun).1, ?_⟩
  rw [← hcount, hsize]
  rfl

/-! ## A memory that is shared -/

/-- A reader gets its own reading of a text exactly when the keeper of the text, if there is
one, reads it alike. -/
theorem read_fresh_iff {history : List Operation} {reader : DocReader} {t : Text} :
    ((after history).read reader t).1 = reader.read (some t) ↔
      ∀ keeper, KeptBy t keeper history → keeper.read (some t) = reader.read (some t) := by
  constructor
  · intro hfresh keeper hkeeper
    exact (read_of_keptBy hkeeper).symm.trans hfresh
  · intro hagree
    by_cases hknown : Known t history
    · obtain ⟨keeper, hkeeper⟩ := exists_keptBy hknown
      exact (read_of_keptBy hkeeper).trans (hagree keeper hkeeper)
    · exact read_of_not_known hknown

/-- Of a section that was read as fields the raw reader is told the fields, where it would
read a paragraph. -/
theorem read_stale :
    ((after [.read .standard "Args:\n  x: X".toList]).read .raw "Args:\n  x: X".toList).1 ≠
      DocReader.raw.read (some "Args:\n  x: X".toList) := by
  decide +kernel

end CallDoc.DocCache
