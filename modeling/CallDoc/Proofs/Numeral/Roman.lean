import CallDoc.Numeral.Roman
import CallDoc.Proofs.Text.Prose

/-!
Roman numerals read back as the number they were written for. A group of letters adds its
value to what stands behind it, as long as that does not start with a letter larger than
the last of the group, and the groups of a numeral stand in an order where it never does.
-/
namespace CallDoc.Roman

/-- The value of a letter of a numeral. -/
def letterValue (c : Char) : Nat := (letter? c).getD 0

/-- The values of the letters of a numeral. -/
def values (t : Text) : List Nat := t.map letterValue

theorem values_append (s t : Text) : values (s ++ t) = values s ++ values t := List.map_append

theorem mapM_letter? {t : Text} (h : ∀ c ∈ t, (letter? c).isSome) :
    t.mapM letter? = some (values t) := by
  induction t with
  | nil => rfl
  | cons c t ih =>
    obtain ⟨hc, hmore⟩ := List.forall_mem_cons.1 h
    obtain ⟨v, hv⟩ := Option.isSome_iff_exists.1 hc
    have hvalue : letterValue c = v := by rw [letterValue, hv, Option.getD_some]
    have hcons : values (c :: t) = v :: values t := congrArg (· :: values t) hvalue
    rw [List.mapM_cons, hv, ih hmore, hcons]
    rfl

/-! ## Groups of letters -/

/-- No larger number than `v` comes first. -/
def StartsBelow (v : Nat) (l : List Nat) : Prop := ∀ w, l.head? = some w → w ≤ v

theorem sum_cons {v : Nat} {more : List Nat} (h : StartsBelow v more) :
    sum (v :: more) = v + sum more := by
  have hhead : (more.head?.any fun w => decide (v < w)) = false := by
    cases hw : more.head? with
    | none => rfl
    | some w => simpa using h w hw
  rw [sum, hhead, Nat.add_comm]
  rfl

theorem sum_cons_cons {v w : Nat} {more : List Nat} (hlt : v < w) (h : StartsBelow w more) :
    sum (v :: w :: more) = w - v + sum more := by
  have hhead : ((w :: more).head?.any fun u => decide (v < u)) = true := by simpa using hlt
  rw [sum, hhead, sum_cons h]
  simp only [if_true]
  omega

/-- The first and the last letter of a group, by their values. -/
def firstValue (letters : Text) : Nat := (values letters).headD 0

def lastValue (letters : Text) : Nat := (values letters).getLastD 0

/-- The group is a letter, or one with a smaller one before it, and is worth `value`. -/
structure IsGroup (value : Nat) (letters : Text) : Prop where
  spelled : (∃ c, letters = [c] ∧ letterValue c = value) ∨
    ∃ c d, letters = [c, d] ∧ letterValue c < letterValue d ∧
      letterValue d - letterValue c = value
  known : ∀ c ∈ letters, (letter? c).isSome

/-- No group starts with a larger letter than one before it ends with. -/
structure Descends (gs : List (Nat × Text)) : Prop where
  groups : ∀ g ∈ gs, IsGroup g.1 g.2
  ordered : gs.Pairwise fun g h => firstValue h.2 ≤ lastValue g.2

theorem isGroup_letter {c : Char} {v : Nat} (hc : letter? c = some v) : IsGroup v [c] where
  spelled := Or.inl ⟨c, rfl, by rw [letterValue, hc, Option.getD_some]⟩
  known := by simp [hc]

theorem isGroup_pair {c d : Char} {v w value : Nat} (hc : letter? c = some v)
    (hd : letter? d = some w) (hlt : v < w) (hvalue : w - v = value) : IsGroup value [c, d] where
  spelled := by
    have hvalues : letterValue c = v ∧ letterValue d = w := by simp [letterValue, hc, hd]
    rw [← hvalues.1, ← hvalues.2] at hlt hvalue
    exact Or.inr ⟨c, d, rfl, hlt, hvalue⟩
  known := by simp [hc, hd]

theorem descends_groups : Descends groups where
  groups := by
    simp only [groups, List.forall_mem_cons, List.not_mem_nil, false_imp_iff, implies_true,
      and_true]
    exact ⟨isGroup_letter rfl, isGroup_pair (c := 'C') (d := 'M') rfl rfl (by decide) rfl,
      isGroup_letter rfl, isGroup_pair (c := 'C') (d := 'D') rfl rfl (by decide) rfl,
      isGroup_letter rfl, isGroup_pair (c := 'X') (d := 'C') rfl rfl (by decide) rfl,
      isGroup_letter rfl, isGroup_pair (c := 'X') (d := 'L') rfl rfl (by decide) rfl,
      isGroup_letter rfl, isGroup_pair (c := 'I') (d := 'X') rfl rfl (by decide) rfl,
      isGroup_letter rfl, isGroup_pair (c := 'I') (d := 'V') rfl rfl (by decide) rfl,
      isGroup_letter rfl⟩
  ordered := by decide

theorem IsGroup.sum_values {value : Nat} {letters : Text} (h : IsGroup value letters)
    {more : List Nat} (hmore : StartsBelow (lastValue letters) more) :
    sum (values letters ++ more) = value + sum more := by
  rcases h.spelled with ⟨c, rfl, rfl⟩ | ⟨c, d, rfl, hlt, rfl⟩
  · exact sum_cons hmore
  · exact sum_cons_cons hlt hmore

theorem IsGroup.exists_cons {value : Nat} {letters : Text} (h : IsGroup value letters) :
    ∃ tail, values letters = firstValue letters :: tail ∧
      firstValue letters ≤ lastValue letters := by
  rcases h.spelled with ⟨c, rfl, rfl⟩ | ⟨c, d, rfl, hlt, rfl⟩
  · exact ⟨[], rfl, Nat.le_refl _⟩
  · exact ⟨[letterValue d], rfl, Nat.le_of_lt hlt⟩

/-- The same group may stand several times in front. -/
theorem IsGroup.sum_replicate {value : Nat} {letters : Text} (h : IsGroup value letters)
    {more : List Nat} (hmore : StartsBelow (lastValue letters) more) (k : Nat) :
    sum (values (List.replicate k letters).flatten ++ more) = k * value + sum more ∧
      StartsBelow (lastValue letters) (values (List.replicate k letters).flatten ++ more) := by
  induction k with
  | zero => exact ⟨by simp [values], hmore⟩
  | succ k ih =>
    obtain ⟨tail, hvalues, hle⟩ := h.exists_cons
    have hcons : values (List.replicate (k + 1) letters).flatten ++ more =
        values letters ++ (values (List.replicate k letters).flatten ++ more) := by
      rw [List.replicate_succ, List.flatten_cons, values_append, List.append_assoc]
    rw [hcons]
    constructor
    · rw [h.sum_values ih.2, ih.1, Nat.succ_mul]
      omega
    · rw [hvalues]
      rintro w ⟨⟩
      exact hle

theorem startsBelow_write {gs : List (Nat × Text)} (hgs : ∀ g ∈ gs, IsGroup g.1 g.2) {v : Nat}
    (hv : ∀ g ∈ gs, firstValue g.2 ≤ v) (n : Nat) : StartsBelow v (values (write gs n)) := by
  induction gs generalizing n with
  | nil => exact nofun
  | cons g gs ih =>
    obtain ⟨value, letters⟩ := g
    obtain ⟨hg, hmore⟩ := List.forall_mem_cons.1 hgs
    obtain ⟨hle, hle'⟩ := List.forall_mem_cons.1 hv
    obtain ⟨tail, hvalues, -⟩ := hg.exists_cons
    rw [write, values_append]
    cases n / value with
    | zero => exact ih hmore hle' _
    | succ k =>
      rw [List.replicate_succ, List.flatten_cons, values_append, hvalues]
      rintro w ⟨⟩
      exact hle

/-- The letters add up to the number, but for what is left of it after the last group. -/
theorem sum_write {gs : List (Nat × Text)} (h : Descends gs) (n : Nat) :
    sum (values (write gs n)) + gs.foldl (fun n g => n % g.1) n = n := by
  induction gs generalizing n with
  | nil => exact Nat.zero_add n
  | cons g gs ih =>
    obtain ⟨value, letters⟩ := g
    obtain ⟨hg, hmore⟩ := List.forall_mem_cons.1 h.groups
    obtain ⟨hfirst, hordered⟩ := List.pairwise_cons.1 h.ordered
    have hrest := ih ⟨hmore, hordered⟩ (n % value)
    have hsum := (hg.sum_replicate (startsBelow_write hmore hfirst (n % value)) (n / value)).1
    have hdiv := Nat.div_add_mod' n value
    rw [write, values_append, List.foldl_cons]
    dsimp only at hsum hrest ⊢
    omega

theorem mem_write {gs : List (Nat × Text)} {n : Nat} {c : Char} (h : c ∈ write gs n) :
    ∃ g ∈ gs, c ∈ g.2 := by
  induction gs generalizing n with
  | nil => cases h
  | cons g gs ih =>
    obtain ⟨value, letters⟩ := g
    rw [write, List.mem_append, List.mem_flatten] at h
    rcases h with ⟨l, hl, hc⟩ | h
    · exact ⟨_, List.mem_cons_self, List.eq_of_mem_replicate hl ▸ hc⟩
    · obtain ⟨g, hg, hc⟩ := ih h
      exact ⟨g, List.mem_cons_of_mem _ hg, hc⟩

/-- The last group is worth one, so that nothing is left behind it. -/
theorem foldl_mod_groups (n : Nat) : groups.foldl (fun n g => n % g.1) n = 0 := by
  simp [groups, Nat.mod_one]

theorem sum_write_groups (n : Nat) : sum (values (write groups n)) = n := by
  have hsum := sum_write descends_groups n
  rwa [foldl_mod_groups] at hsum

/-- The letters of numerals. -/
theorem mem_letters_of_mem_numeral? {n : Nat} {numeral : Text} (h : numeral? n = some numeral)
    {c : Char} (hc : c ∈ numeral) : c ∈ "IVXLCDM".toList := by
  rw [numeral?] at h
  split at h
  · obtain rfl := Option.some.inj h
    obtain ⟨g, hg, hmem⟩ := mem_write hc
    have hletters : ∀ g ∈ groups, g.2.all ("IVXLCDM".toList.contains ·) = true := by decide
    exact List.contains_iff_mem.1 (List.all_eq_true.1 (hletters g hg) c hmem)
  · cases h

theorem value?_numeral {n : Nat} {numeral : Text} (h : numeral? n = some numeral) :
    value? numeral = some n := by
  have hknown : ∀ c ∈ "IVXLCDM".toList, (letter? c).isSome := Text.forall_mem_of_all (by decide)
  have hletters : ∀ c ∈ numeral, (letter? c).isSome := fun c hc =>
    hknown c (mem_letters_of_mem_numeral? h hc)
  have hsum : sum (values numeral) = n := by
    rw [numeral?] at h
    split at h
    · obtain rfl := Option.some.inj h
      exact sum_write_groups n
    · cases h
  rw [value?, mapM_letter? hletters, Option.bind_some, hsum, if_pos h]

/-- Only the numeral of a number denotes it. -/
theorem numeral?_value {t : Text} {n : Nat} (h : value? t = some n) : numeral? n = some t := by
  obtain ⟨values, -, hsum⟩ := Option.bind_eq_some_iff.1 h
  obtain ⟨hnumeral, hn⟩ := Option.ite_none_right_eq_some.1 hsum
  exact Option.some.inj hn ▸ hnumeral

/-- A number above zero has letters. -/
theorem ne_nil_of_numeral? {n : Nat} {numeral : Text} (h : numeral? n = some numeral) :
    numeral ≠ [] := by
  rintro rfl
  have hvalue := value?_numeral h
  cases hvalue

end CallDoc.Roman
