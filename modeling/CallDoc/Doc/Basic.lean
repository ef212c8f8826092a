import CallDoc.Text.Basic

/-!
What documentation says of a callable: prose, a text and a type for each documented
parameter, and the errors that a call can raise.
-/
namespace CallDoc

/-- The documentation of one parameter. -/
structure ParamDoc where
  text : Option Text := none
  /-- The spelling of the type, not yet read. -/
  type : Option Text := none
  deriving DecidableEq, Repr

/-- The documentation of parameters by name, in the order of the names. -/
abbrev ParamDocs := List (Text × ParamDoc)

namespace ParamDocs

def find? (params : ParamDocs) (name : Text) : Option ParamDoc := params.lookup name

/-- What is known of a parameter, which may be nothing. -/
def get (params : ParamDocs) (name : Text) : ParamDoc := (params.find? name).getD ⟨none, none⟩

/-- The table with the documentation of one parameter put in its place. -/
def insert (name : Text) (doc : ParamDoc) : ParamDocs → ParamDocs
  | [] => [(name, doc)]
  | (key, other) :: more =>
    if key = name then (name, doc) :: more
    else if Text.before name key then (name, doc) :: (key, other) :: more
    else (key, other) :: insert name doc more

theorem find?_insert (params : ParamDocs) (name key : Text) (doc : ParamDoc) :
    (params.insert name doc).find? key = if key = name then some doc else params.find? key := by
  induction params with
  | nil =>
    by_cases h : key = name
    · simp [insert, find?, h]
    · simp [insert, find?, List.lookup_cons, beq_eq_false_iff_ne.2 h, h]
  | cons head more ih =>
    obtain ⟨other, otherDoc⟩ := head
    simp only [find?] at ih
    by_cases hname : key = name
    · subst hname
      by_cases hkey : other = key
      · simp [insert, find?, hkey]
      · have hne : key ≠ other := fun e => hkey e.symm
        simp only [insert, find?, if_neg hkey]
        split
        · simp
        · simpa [List.lookup_cons, beq_eq_false_iff_ne.2 hne] using ih
    · simp only [if_neg hname] at ih ⊢
      by_cases hkey : other = name
      · have hne : key ≠ other := fun e => hname (e.trans hkey)
        simp [insert, find?, List.lookup_cons, hkey, beq_eq_false_iff_ne.2 hname]
      · simp only [insert, find?, if_neg hkey]
        split
        · simp [List.lookup_cons, beq_eq_false_iff_ne.2 hname]
        · simp only [List.lookup_cons, ih]

end ParamDocs

structure Doc where
  /-- The first piece of prose. -/
  summary : Text
  /-- All prose, without the fields. -/
  description : Text
  params : ParamDocs
  /-- The names of the errors, in the order they are declared. -/
  raises : List Text
  deriving DecidableEq, Repr

/-- The documentation of a callable that has none. -/
def Doc.empty : Doc := ⟨[], [], [], []⟩

end CallDoc
