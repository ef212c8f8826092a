import CallDoc.Text.Basic

/-!
Paths, kept as they are spelled. They are compared by their components: slashes beside each
other, and dots that are not at the start, make no difference. Where a path leads is told
by its steps, in which every step back is taken.
-/
namespace CallDoc.Path

open Text

/-- The components of a path. The root is an empty component, and a dot counts only at the
start. -/
def components (path : Text) : List Text :=
  match splitOn '/' path with
  | [] => []
  | [[]] => []
  | first :: more => first :: more.filter fun c => !c.isEmpty && c != ['.']

/-- The rank of a component: the root, the directory itself, the one above, and names. -/
def rank (component : Text) : Nat :=
  if component.isEmpty then 0 else if component = ['.'] then 1
  else if component = ['.', '.'] then 2 else 3

def componentBefore (a b : Text) : Bool :=
  rank a < rank b || (rank a == rank b && before a b)

/-- The order of paths, component by component. -/
def componentsBefore : List Text → List Text → Bool
  | [], [] => false
  | [], _ :: _ => true
  | _ :: _, [] => false
  | a :: s, b :: t => componentBefore a b || (a == b && componentsBefore s t)

/-- The last component of a path. -/
def name? (path : Text) : Option Text := (components path).getLast?

/-- The path of an entry of a directory. -/
def join (path name : Text) : Text :=
  if path.isEmpty || path.getLast? == some '/' then path ++ name else path ++ '/' :: name

/-- The path of an entry, where entries of the current directory stand alone. -/
def entry (path name : Text) : Text :=
  if components path = [['.']] then name else join path name

/-- What stands behind the last dot of a file's name, unless the name starts with it. -/
def extension? (path : Text) : Option Text :=
  ((name? path).bind (splitLast? '.')).bind fun (stem, extension) =>
    if stem.isEmpty then none else some extension

/-- Where a path starts, and what it is made of from there on. The root is the one place
whose steps are a single empty name. -/
def start (path : Text) : List Text × List Text :=
  match splitOn '/' path with
  | [] :: c :: more => ([[]], c :: more)
  | parts => ([], parts)

/-- The place that one more component leads to. Nothing is above the root, and above the
current directory steps back add up. -/
def advance (place : List Text) (component : Text) : List Text :=
  if component.isEmpty || component = ['.'] then place
  else if component = ['.', '.'] then
    match place.getLast? with
    | none => [component]
    | some last =>
      if last.isEmpty then place else if last = component then place ++ [component]
      else place.dropLast
  else place ++ [component]

/-- The steps of a path, by which a place is known. -/
def steps (path : Text) : List Text := (start path).2.foldl advance (start path).1

/-- A component that stays where it is or goes back, whatever there is to go to. -/
def isDots (component : Text) : Bool := component = ['.'] || component = ['.', '.']

/-- What an entry of a directory can be called. -/
def isName (name : Text) : Bool := !name.isEmpty && !name.contains '/' && !isDots name

/-- The place that components lead to, from the root or from a current directory. -/
def placeFrom (cwd : List Text) : List Text → List Text
  | [] :: more => more.foldl advance [[]]
  | parts => parts.foldl advance cwd

/-- The place that a path leads to from a current directory, as long as no link is on the way. -/
def place (cwd : List Text) (p : Text) : List Text := placeFrom cwd (components p)

/-- The components that `components` leaves out lead nowhere. -/
theorem foldl_advance_filter (parts start : List Text) :
    (parts.filter fun c => !c.isEmpty && c != ['.']).foldl advance start =
      parts.foldl advance start := by
  rw [List.foldl_filter]
  congr 1
  funext steps c
  by_cases h : (!c.isEmpty && c != ['.']) = true
  · exact if_pos h
  · rw [if_neg h, advance, if_pos]
    simpa [Decidable.or_iff_not_imp_left] using h

theorem placeFrom_of_ne_nil {cwd : List Text} {first : Text} (h : first ≠ []) (more : List Text) :
    placeFrom cwd (first :: more) = (first :: more).foldl advance cwd := by
  cases first with
  | nil => exact absurd rfl h
  | cons => rfl

/-- The steps of a path are told by its components. -/
theorem steps_eq_place (p : Text) : steps p = place [] p := by
  unfold steps place start components
  match splitOn '/' p with
  | [] => rfl
  | [[]] => rfl
  | [] :: c :: more => exact (foldl_advance_filter (c :: more) [[]]).symm
  | (a :: first) :: more =>
    rw [placeFrom_of_ne_nil (List.cons_ne_nil a first)]
    exact (foldl_advance_filter more (advance [] (a :: first))).symm

end CallDoc.Path
