import CallDoc.Docstring

/-!
A memory of documentation that has been read, by the text it was read from. What could not
be read is not remembered. The key is the text alone: a memory belongs to one reader.
-/
namespace CallDoc

structure DocCache where
  entries : List (Text × Doc)
  deriving DecidableEq, Repr

namespace DocCache

def empty : DocCache := ⟨[]⟩

def find? (cache : DocCache) (t : Text) : Option Doc := cache.entries.lookup t

def size (cache : DocCache) : Nat := cache.entries.length

/-- The documentation in a text, from the memory if it is there, and the memory after it. -/
def read (cache : DocCache) (reader : DocReader) (t : Text) : Except Error Doc × DocCache :=
  match cache.find? t with
  | some doc => (.ok doc, cache)
  | none =>
    match reader.readText t with
    | .ok doc => (.ok doc, ⟨(t, doc) :: cache.entries⟩)
    | .error e => (.error e, cache)

/-- The memory without one text. -/
def erase (cache : DocCache) (t : Text) : DocCache :=
  ⟨cache.entries.filter fun entry => entry.1 != t⟩

theorem find?_erase (cache : DocCache) (t u : Text) :
    (cache.erase t).find? u = if u = t then none else cache.find? u := by
  obtain ⟨entries⟩ := cache
  simp only [find?, erase]
  induction entries with
  | nil => simp
  | cons entry more ih =>
    obtain ⟨key, doc⟩ := entry
    by_cases hkey : key = t
    · subst hkey
      by_cases hu : u = key
      · simpa [hu] using ih
      · simpa [List.lookup_cons, beq_eq_false_iff_ne.2 hu, hu] using ih
    · by_cases hu : u = key
      · subst hu
        simp [hkey]
      · simpa [List.lookup_cons, hkey, beq_eq_false_iff_ne.2 hu] using ih

/-- The memory without one text, and whether it was there. -/
def evict (cache : DocCache) (t : Text) : Bool × DocCache :=
  ((cache.find? t).isSome, cache.erase t)

end DocCache
end CallDoc
