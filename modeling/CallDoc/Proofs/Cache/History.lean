import Mathlib.Data.List.Induction
import Mathlib.Data.Set.Card
import CallDoc.Proofs.Results
import CallDoc.Signature

/-!
Histories of a memory of documentation. One operation changes what is remembered of a text
in one of two ways: it forgets the text, or it reads it with success when nothing is
remembered yet. So after a history a text is remembered exactly when it was read with
success since it was last forgotten, and what is remembered is what the first of these
readings gave.
-/
namespace CallDoc.DocCache

/-- What can be asked of a memory. Callables are described with the help of it. -/
inductive Operation
  | read (reader : DocReader) (t : Text)
  | find (t : Text)
  | evict (t : Text)
  | clear
  | describe (a : Assembler) (doc? : Option Text) (specs : List ParamSpec)

inductive Answer
  | doc (result : Except Error Doc)
  | found (doc? : Option Doc)
  | evicted (present : Bool)
  | cleared
  | signature (result : Except Error Signature)

/-- The answer to an operation, and the memory after it. -/
def run (cache : DocCache) : Operation → Answer × DocCache
  | .read reader t => (.doc (cache.read reader t).1, (cache.read reader t).2)
  | .find t => (.found (cache.find? t), cache)
  | .evict t => (.evicted (cache.evict t).1, (cache.evict t).2)
  | .clear => (.cleared, empty)
  | .describe a doc? specs =>
    (.signature (a.cachedSignature cache doc? specs).1, (a.cachedSignature cache doc? specs).2)

/-- The memory after a history that begins with an empty one. -/
def after (history : List Operation) : DocCache :=
  history.foldl (fun cache op => (cache.run op).2) empty

theorem after_concat (history : List Operation) (op : Operation) :
    after (history ++ [op]) = ((after history).run op).2 := by
  rw [after, List.foldl_append]
  rfl

namespace Operation

/-- The reader and the text, when the operation asks for the documentation in a text. -/
def reads? : Operation → Option (DocReader × Text)
  | read reader t => some (reader, t)
  | describe a (some t) _ => some (a.reader, t)
  | find _ | evict _ | clear | describe _ none _ => none

/-- The documentation in the text, when the operation asks for it and its reader can read
it. -/
def reading? (op : Operation) (t : Text) : Option Doc :=
  op.reads?.bind fun (reader, u) => if u = t then (reader.readText t).toOption else none

def forgets : Operation → Text → Bool
  | evict u, t => u == t
  | clear, _ => true
  | read _ _, _ | find _, _ | describe _ _ _, _ => false

variable {op : Operation} {t : Text}

theorem toOption_eq_some_iff {α ε : Type} {r : Except ε α} {a : α} :
    r.toOption = some a ↔ r = .ok a := by
  cases r <;> simp [Except.toOption]

theorem reading?_eq_some_iff {doc : Doc} :
    op.reading? t = some doc ↔
      ∃ reader, op.reads? = some (reader, t) ∧ reader.readText t = .ok doc := by
  rw [reading?, Option.bind_eq_some_iff]
  constructor
  · rintro ⟨⟨reader, u⟩, hreads, hdoc⟩
    obtain ⟨rfl, hdoc⟩ := Option.ite_none_right_eq_some.1 hdoc
    exact ⟨reader, hreads, toOption_eq_some_iff.1 hdoc⟩
  · rintro ⟨reader, hreads, hdoc⟩
    exact ⟨(reader, t), hreads, (if_pos rfl).trans (toOption_eq_some_iff.2 hdoc)⟩

theorem reading?_of_forgets (h : op.forgets t = true) : op.reading? t = none := by
  cases op with
  | read | find | describe => cases h
  | evict | clear => rfl

end Operation

/-! ## One operation -/

/-- A reading is remembered when it succeeds and nothing is remembered of its text yet. -/
theorem find?_read (cache : DocCache) (reader : DocReader) (t u : Text) :
    (cache.read reader u).2.find? t =
      (cache.find? t).or (if u = t then (reader.readText t).toOption else none) := by
  by_cases hu : u = t
  · subst hu
    unfold read
    cases hfind : cache.find? u with
    | some known => simp [hfind]
    | none =>
      cases hread : reader.readText u with
      | error e => simp [hfind, Except.toOption]
      | ok doc => simp [find?, Except.toOption]
  · have hother : (t == u) = false := beq_eq_false_iff_ne.2 fun he => hu he.symm
    rw [if_neg hu, Option.or_none, read]
    split
    · rfl
    · split
      · rw [find?, List.lookup_cons, hother]
        rfl
      · rfl

/-- One operation forgets a text, or leaves what is remembered of it, or remembers what it
read itself. -/
theorem find?_run (cache : DocCache) (op : Operation) (t : Text) :
    (cache.run op).2.find? t =
      if op.forgets t then none else (cache.find? t).or (op.reading? t) := by
  cases op with
  | read reader u => exact find?_read cache reader t u
  | find u => exact (Option.or_none ..).symm
  | evict u =>
    change (cache.erase u).find? t = if (u == t) = true then none else (cache.find? t).or none
    rw [find?_erase, Option.or_none]
    simp only [beq_iff_eq, eq_comm (a := u)]
  | clear => rfl
  | describe a doc? specs =>
    cases doc? with
    | none => exact (Option.or_none ..).symm
    | some u => exact find?_read cache a.reader t u

/-! ## Histories -/

/-- Some operation has the property, together with the history before it, and none after it
forgets the text. -/
def Since (t : Text) (property : List Operation → Operation → Prop) (history : List Operation) :
    Prop :=
  ∃ past op later, history = past ++ op :: later ∧ property past op ∧
    ∀ next ∈ later, next.forgets t = false

/-- The text was read with success since it was last forgotten. -/
def Known (t : Text) : List Operation → Prop :=
  Since t fun _ op => (op.reading? t).isSome = true

/-- The reader was the first to read the text with success since it was last forgotten. -/
def KeptBy (t : Text) (reader : DocReader) : List Operation → Prop :=
  Since t fun past op => ¬ Known t past ∧ op.reads? = some (reader, t) ∧
    ∃ doc, reader.readText t = .ok doc

variable {t : Text} {history : List Operation}

theorem not_since_nil {property : List Operation → Operation → Prop} : ¬ Since t property [] := by
  rintro ⟨past, op, later, h, -⟩
  cases past <;> cases h

theorem since_concat {property : List Operation → Operation → Prop} {op : Operation} :
    Since t property (history ++ [op]) ↔
      property history op ∨ Since t property history ∧ op.forgets t = false := by
  constructor
  · rintro ⟨past, last, later, hsplit, hlast, hlater⟩
    rcases List.eq_nil_or_concat' later with rfl | ⟨later, next, rfl⟩
    · obtain ⟨rfl, hop⟩ := List.append_inj' hsplit rfl
      exact Or.inl ((List.cons.inj hop).1 ▸ hlast)
    · rw [← List.cons_append, ← List.append_assoc] at hsplit
      obtain ⟨rfl, hop⟩ := List.append_inj' hsplit rfl
      refine Or.inr ⟨⟨past, last, later, rfl, hlast, fun o ho => hlater o (by simp [ho])⟩, ?_⟩
      exact (List.cons.inj hop).1 ▸ hlater next (by simp)
  · rintro (h | ⟨⟨past, last, later, rfl, hlast, hlater⟩, hop⟩)
    · exact ⟨history, op, [], rfl, h, nofun⟩
    · refine ⟨past, last, later ++ [op], by simp, hlast, fun o ho => ?_⟩
      rcases List.mem_append.1 ho with ho | ho
      · exact hlater o ho
      · exact List.mem_singleton.1 ho ▸ hop

/-- What is remembered is what was read since it was last forgotten. -/
theorem isSome_find?_after : ((after history).find? t).isSome = true ↔ Known t history := by
  induction history using List.reverseRecOn with
  | nil => exact iff_of_false nofun not_since_nil
  | append_singleton history op ih =>
    rw [Known, since_concat, ← Known, ← ih, after_concat, find?_run]
    cases hforgets : op.forgets t with
    | true => simp [Operation.reading?_of_forgets hforgets]
    | false => simp [or_comm]

/-- What is remembered of a text is the first reading of it. -/
theorem find?_after_eq_some_iff {doc : Doc} :
    (after history).find? t = some doc ↔
      ∃ reader, KeptBy t reader history ∧ reader.readText t = .ok doc := by
  induction history using List.reverseRecOn with
  | nil => exact iff_of_false nofun fun ⟨_, h, _⟩ => not_since_nil h
  | append_singleton history op ih =>
    have hnone : (after history).find? t = none ↔ ¬ Known t history := by
      rw [← isSome_find?_after, Option.not_isSome_iff_eq_none]
    simp only [KeptBy, since_concat, after_concat, find?_run]
    cases hforgets : op.forgets t with
    | true =>
      refine iff_of_false nofun ?_
      rintro ⟨reader, ⟨-, hreads, -⟩ | ⟨-, hkeep⟩, hdoc⟩
      · have hreading := Operation.reading?_eq_some_iff.2 ⟨reader, hreads, hdoc⟩
        rw [Operation.reading?_of_forgets hforgets] at hreading
        cases hreading
      · cases hkeep
    | false =>
      rw [if_neg Bool.false_ne_true, Option.or_eq_some_iff, ih, hnone,
        Operation.reading?_eq_some_iff]
      constructor
      · rintro (⟨reader, hkept, hdoc⟩ | ⟨hnew, reader, hreads, hdoc⟩)
        · exact ⟨reader, Or.inr ⟨hkept, rfl⟩, hdoc⟩
        · exact ⟨reader, Or.inl ⟨hnew, hreads, doc, hdoc⟩, hdoc⟩
      · rintro ⟨reader, ⟨hnew, hreads, -⟩ | ⟨hkept, -⟩, hdoc⟩
        · exact Or.inr ⟨hnew, reader, hreads, hdoc⟩
        · exact Or.inl ⟨reader, hkept, hdoc⟩

/-! ## The number of texts -/

theorem mem_keys_iff {cache : DocCache} :
    t ∈ cache.entries.map Prod.fst ↔ (cache.find? t).isSome = true := isSome_lookup_iff.symm

theorem nodup_read {cache : DocCache} (h : (cache.entries.map Prod.fst).Nodup)
    (reader : DocReader) (t : Text) : ((cache.read reader t).2.entries.map Prod.fst).Nodup := by
  unfold read
  split
  · exact h
  · rename_i hfind
    split
    · refine List.nodup_cons.2 ⟨fun hmem => ?_, h⟩
      rw [mem_keys_iff, hfind] at hmem
      cases hmem
    · exact h

/-- No text is remembered twice. -/
theorem nodup_run {cache : DocCache} (h : (cache.entries.map Prod.fst).Nodup) (op : Operation) :
    ((cache.run op).2.entries.map Prod.fst).Nodup := by
  cases op with
  | read reader t => exact nodup_read h reader t
  | find t => exact h
  | evict t => exact h.sublist (List.filter_sublist.map _)
  | clear => exact List.nodup_nil
  | describe a doc? specs =>
    cases doc? with
    | none => exact h
    | some t => exact nodup_read h a.reader t

/-- As many texts are remembered as were read since they were last forgotten. -/
theorem size_after (history : List Operation) :
    ((after history).size : ℕ∞) = {t | Known t history}.encard := by
  have hnodup : ((after history).entries.map Prod.fst).Nodup := by
    induction history using List.reverseRecOn with
    | nil => exact List.nodup_nil
    | append_singleton history op ih => exact after_concat history op ▸ nodup_run ih op
  have hset : {t | Known t history} = ((after history).entries.map Prod.fst).toFinset := by
    ext t
    rw [Set.mem_ofPred_eq, ← isSome_find?_after, ← mem_keys_iff, List.coe_toFinset,
      Set.mem_ofPred_eq]
  rw [hset, Set.encard_coe_eq_coe_finsetCard, List.toFinset_card_of_nodup hnodup, List.length_map,
    size]

end CallDoc.DocCache
