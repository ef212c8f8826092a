import CallDoc.Proofs.Text.Prose

/-!
Lines joined into a text and cut out of it again.
-/
namespace CallDoc.Text

theorem joinWith_cons_cons (sep piece next : Text) (more : List Text) :
    joinWith sep (piece :: next :: more) = piece ++ (sep ++ joinWith sep (next :: more)) := by
  simp [joinWith, List.intercalate]

theorem joinWith_extendFirst (sep : Text) (c : Char) (pieces : List Text) :
    joinWith sep (extendFirst c pieces) = c :: joinWith sep pieces := by
  rcases pieces with _ | ⟨piece, _ | ⟨next, pieces⟩⟩
  · rfl
  · simp [extendFirst, joinWith]
  · simp [extendFirst, joinWith, List.intercalate_cons_cons]

theorem foldr_extendFirst (lead first : Text) (more : List Text) :
    lead.foldr extendFirst (first :: more) = (lead ++ first) :: more := by
  induction lead with
  | nil => rfl
  | cons c lead ih => rw [List.foldr_cons, ih]; rfl

theorem unlines_singleton (line : Text) : unlines [line] = line := by
  rw [unlines, joinWith, List.intercalate_singleton]

theorem unlines_cons_cons (line next : Text) (more : List Text) :
    unlines (line :: next :: more) = line ++ '\n' :: unlines (next :: more) :=
  joinWith_cons_cons ['\n'] line next more

theorem unlines_cons (line : Text) {more : List Text} (h : more ≠ []) :
    unlines (line :: more) = line ++ '\n' :: unlines more := by
  obtain ⟨next, more, rfl⟩ := List.exists_cons_of_ne_nil h
  exact unlines_cons_cons line next more

theorem unlines_append_head (lead first : Text) (more : List Text) :
    unlines ((lead ++ first) :: more) = lead ++ unlines (first :: more) := by
  cases more with
  | nil => rw [unlines_singleton, unlines_singleton]
  | cons next more => rw [unlines_cons_cons, unlines_cons_cons, List.append_assoc]

theorem unlines_append {a b : List Text} (ha : a ≠ []) (hb : b ≠ []) :
    unlines (a ++ b) = unlines a ++ '\n' :: unlines b := by
  induction a with
  | nil => exact absurd rfl ha
  | cons line a ih =>
    cases a with
    | nil => rw [List.singleton_append, unlines_cons line hb, unlines_singleton]
    | cons next a =>
      rw [List.cons_append, unlines_cons line (by simp), ih (by simp), unlines_cons line (by simp),
        List.append_assoc, List.cons_append]

theorem getLast?_unlines_concat (init : List Text) {line : Text} (h : line ≠ []) :
    (unlines (init ++ [line])).getLast? = line.getLast? := by
  by_cases hinit : init = []
  · rw [hinit, List.nil_append, unlines_singleton]
  · rw [unlines_append hinit (List.cons_ne_nil _ _), unlines_singleton,
      List.getLast?_append_of_ne_nil _ (List.cons_ne_nil _ _), List.getLast?_cons_of_ne_nil h]

theorem isSolid_joinWith (sep : Text) {pieces : List Text} (hne : pieces ≠ [])
    (h : ∀ piece ∈ pieces, IsSolid piece) : IsSolid (joinWith sep pieces) := by
  induction pieces with
  | nil => exact absurd rfl hne
  | cons piece more ih =>
    obtain ⟨hpiece, hmore⟩ := List.forall_mem_cons.1 h
    cases more with
    | nil =>
      rw [joinWith, List.intercalate_singleton]
      exact hpiece
    | cons next more =>
      rw [joinWith_cons_cons, ← List.append_assoc]
      exact hpiece.of_append (ih (List.cons_ne_nil next more) hmore)

theorem isSolid_unlines {lines : List Text} (hne : lines ≠ []) (h : ∀ line ∈ lines, IsSolid line) :
    IsSolid (unlines lines) := isSolid_joinWith ['\n'] hne h

theorem mem_joinWith {sep : Text} {pieces : List Text} {c : Char} (h : c ∈ joinWith sep pieces) :
    c ∈ sep ∨ ∃ piece ∈ pieces, c ∈ piece := by
  induction pieces with
  | nil => cases h
  | cons piece more ih =>
    cases more with
    | nil =>
      rw [joinWith, List.intercalate_singleton] at h
      exact Or.inr ⟨piece, List.mem_cons_self, h⟩
    | cons next more =>
      rw [joinWith_cons_cons, List.mem_append, List.mem_append] at h
      rcases h with h | h | h
      · exact Or.inr ⟨piece, List.mem_cons_self, h⟩
      · exact Or.inl h
      · rcases ih h with hsep | ⟨p, hp, hc⟩
        · exact Or.inl hsep
        · exact Or.inr ⟨p, List.mem_cons_of_mem piece hp, hc⟩

/-- One blank line between two groups of lines. -/
theorem unlines_append_nil {a b : List Text} (ha : a ≠ []) (hb : b ≠ []) :
    unlines (a ++ [] :: b) = unlines a ++ "\n\n".toList ++ unlines b := by
  rw [unlines_append ha (List.cons_ne_nil _ _), unlines_cons _ hb, List.append_assoc]
  rfl

/-- Every line but the last ends in a newline. -/
theorem count_newline_unlines {lines : List Text} (hne : lines ≠ [])
    (h : ∀ line ∈ lines, '\n' ∉ line) : (unlines lines).count '\n' + 1 = lines.length := by
  induction lines with
  | nil => exact absurd rfl hne
  | cons line more ih =>
    obtain ⟨hline, hmore⟩ := List.forall_mem_cons.1 h
    have hcount : line.count '\n' = 0 := List.count_eq_zero.2 hline
    by_cases hempty : more = []
    · rw [hempty, unlines_singleton, hcount]
      rfl
    · rw [unlines_cons line hempty, List.count_append, hcount, List.count_cons_self,
        Nat.zero_add, ih hempty hmore, List.length_cons]

/-- Texts of several lines each are joined like their lines. -/
theorem unlines_flatten {groups : List (List Text)} (h : ∀ group ∈ groups, group ≠ []) :
    unlines (groups.map unlines) = unlines groups.flatten := by
  induction groups with
  | nil => rfl
  | cons group more ih =>
    obtain ⟨hgroup, hmore⟩ := List.forall_mem_cons.1 h
    rw [List.map_cons, List.flatten_cons]
    cases more with
    | nil =>
      rw [List.map_nil, unlines_singleton, List.flatten_nil, List.append_nil]
    | cons next more =>
      have hne : (next :: more).flatten ≠ [] := by
        have := hmore next List.mem_cons_self
        simp [this]
      rw [unlines_cons _ (by simp), ih hmore, unlines_append hgroup hne]

/-- Every line is one or more lines of `whole`, joined. -/
def Joins (lines whole : List Text) : Prop :=
  ∃ groups : List (List Text), (∀ group ∈ groups, group ≠ []) ∧ groups.map unlines = lines ∧
    groups.flatten = whole

theorem joins_self (lines : List Text) : Joins lines lines := by
  refine ⟨lines.map fun line => [line], fun group hgroup => ?_, ?_, ?_⟩
  · obtain ⟨line, -, rfl⟩ := List.mem_map.1 hgroup
    exact List.cons_ne_nil line []
  · rw [List.map_map]
    exact (List.map_congr_left fun line _ => unlines_singleton line).trans (List.map_id lines)
  · rw [← List.flatMap_def]
    exact List.flatMap_singleton' lines

theorem joins_singleton {lines : List Text} (hne : lines ≠ []) : Joins [unlines lines] lines :=
  ⟨[lines], List.forall_mem_singleton.2 hne, rfl, List.append_nil lines⟩

theorem Joins.append {lines whole lines' whole' : List Text} (h : Joins lines whole)
    (h' : Joins lines' whole') : Joins (lines ++ lines') (whole ++ whole') := by
  obtain ⟨groups, hne, rfl, rfl⟩ := h
  obtain ⟨groups', hne', rfl, rfl⟩ := h'
  exact ⟨groups ++ groups', fun group hgroup => (List.mem_append.1 hgroup).elim (hne group)
    (hne' group), List.map_append, List.flatten_append⟩

theorem Joins.unlines_eq {lines whole : List Text} (h : Joins lines whole) :
    unlines lines = unlines whole := by
  obtain ⟨groups, hne, rfl, rfl⟩ := h
  exact unlines_flatten hne

/-! ## Cutting a text into its lines -/

theorem splitOn_of_not_mem {sep : Char} {t : Text} (h : sep ∉ t) : splitOn sep t = [t] := by
  induction t with
  | nil => rfl
  | cons c t ih =>
    rw [List.mem_cons, not_or] at h
    rw [splitOn, if_neg fun he => h.1 he.symm, ih h.2, extendFirst]

/-- A separator ends a piece, whatever stands around it. -/
theorem splitOn_append_sep (sep : Char) (a t : Text) :
    splitOn sep (a ++ sep :: t) = splitOn sep a ++ splitOn sep t := by
  induction a with
  | nil => simp [splitOn]
  | cons c a ih =>
    rw [List.cons_append, splitOn, ih, splitOn]
    split
    · rfl
    · obtain ⟨piece, pieces, h⟩ := List.exists_cons_of_ne_nil (splitOn_ne_nil sep a)
      rw [h]
      rfl

theorem splitOn_append {sep : Char} {t : Text} (h : sep ∉ t) (rest : Text) :
    splitOn sep (t ++ sep :: rest) = t :: splitOn sep rest := by
  rw [splitOn_append_sep, splitOn_of_not_mem h, List.singleton_append]

theorem splitOn_unlines {ls : List Text} (hne : ls ≠ []) (h : ∀ l ∈ ls, '\n' ∉ l) :
    splitOn '\n' (unlines ls) = ls := by
  induction ls with
  | nil => exact absurd rfl hne
  | cons line more ih =>
    obtain ⟨hline, hmore⟩ := List.forall_mem_cons.1 h
    cases more with
    | nil =>
      rw [unlines_singleton]
      exact splitOn_of_not_mem hline
    | cons next more =>
      rw [unlines_cons_cons, splitOn_append hline, ih (by simp) hmore]

/-- The pieces are parts of the text without the separator. -/
theorem of_mem_splitOn {sep : Char} {t piece : Text} (h : piece ∈ splitOn sep t) :
    sep ∉ piece ∧ ∀ c ∈ piece, c ∈ t := by
  induction t generalizing piece with
  | nil =>
    obtain rfl := List.mem_singleton.1 h
    exact ⟨nofun, nofun⟩
  | cons d t ih =>
    have hlater {piece : Text} (h : piece ∈ splitOn sep t) :
        sep ∉ piece ∧ ∀ c ∈ piece, c ∈ d :: t :=
      ⟨(ih h).1, fun c hc => List.mem_cons_of_mem d ((ih h).2 c hc)⟩
    rw [splitOn] at h
    split at h
    · rcases List.mem_cons.1 h with rfl | h
      · exact ⟨nofun, nofun⟩
      · exact hlater h
    · rename_i hd
      obtain ⟨first, more, hsplit⟩ := List.exists_cons_of_ne_nil (splitOn_ne_nil sep t)
      rw [hsplit] at hlater h
      rcases List.mem_cons.1 h with rfl | h
      · obtain ⟨hsep, hmem⟩ := hlater (List.mem_cons_self ..)
        exact ⟨fun hc => (List.mem_cons.1 hc).elim (fun he => hd he.symm) hsep,
          List.forall_mem_cons.2 ⟨List.mem_cons_self, hmem⟩⟩
      · exact hlater (List.mem_cons_of_mem first h)

/-- What stands in front of a text and holds no separator is in its first piece. -/
theorem splitOn_append_of_not_mem {sep : Char} {lead t first : Text} {more : List Text}
    (hlead : sep ∉ lead) (ht : splitOn sep t = first :: more) :
    splitOn sep (lead ++ t) = (lead ++ first) :: more := by
  induction lead with
  | nil => exact ht
  | cons c lead ih =>
    rw [List.mem_cons, not_or] at hlead
    rw [List.cons_append, splitOn, if_neg fun he => hlead.1 he.symm, ih hlead.2, extendFirst,
      List.cons_append]

/-- The lines of a text that hangs below its first one. -/
theorem splitOn_hang {pad : Text} (hpad : '\n' ∉ pad) {t first : Text} {below : List Text}
    (ht : splitOn '\n' t = first :: below) :
    splitOn '\n' (hang pad t) = first :: below.map (pad ++ ·) := by
  induction t generalizing first below with
  | nil =>
    obtain ⟨rfl, rfl⟩ := List.cons.inj ht
    rfl
  | cons c t ih =>
    obtain ⟨next, more, hsplit⟩ := List.exists_cons_of_ne_nil (splitOn_ne_nil '\n' t)
    have hmore := ih hsplit
    rw [splitOn, hsplit] at ht
    rw [hang, List.flatMap_cons, ← hang]
    split at ht
    · obtain ⟨rfl, rfl⟩ := List.cons.inj ht
      rename_i hc
      rw [if_pos hc, List.cons_append, splitOn, if_pos rfl, splitOn_append_of_not_mem hpad hmore,
        List.map_cons]
    · obtain ⟨rfl, rfl⟩ := List.cons.inj ht
      rename_i hc
      rw [if_neg hc, List.singleton_append, splitOn, if_neg hc, hmore, extendFirst]

/-- A text of several lines hangs by its lines. -/
theorem hang_unlines {pad first : Text} {more : List Text} (hpad : '\n' ∉ pad)
    (h : ∀ line ∈ first :: more, '\n' ∉ line) :
    hang pad (unlines (first :: more)) = unlines (first :: more.map (pad ++ ·)) := by
  have hsplit := splitOn_hang hpad (splitOn_unlines (List.cons_ne_nil first more) h)
  rw [← joinWith_splitOn '\n' (hang pad (unlines (first :: more))), hsplit]
  rfl

theorem IsSolid.hang {t : Text} (h : IsSolid t) (pad : Text) : IsSolid (hang pad t) := by
  have hself {c : Char} (hc : isBlank c = false) : (if c = '\n' then '\n' :: pad else [c]) = [c] :=
    if_neg fun he => by rw [he] at hc; cases hc
  obtain ⟨c, u, hcons, hc⟩ := h.head
  obtain ⟨v, d, hconcat, hd⟩ := h.last
  refine ⟨⟨c, Text.hang pad u, ?_, hc⟩, ⟨Text.hang pad v, d, ?_, hd⟩⟩
  · rw [hcons, Text.hang, List.flatMap_cons, hself hc]
    rfl
  · rw [hconcat, Text.hang, List.flatMap_append, List.flatMap_singleton, hself hd]
    rfl

theorem hang_append (pad a b : Text) : hang pad (a ++ b) = hang pad a ++ hang pad b :=
  List.flatMap_append

/-- A text of one line hangs as it stands. -/
theorem hang_of_not_mem {t : Text} (h : '\n' ∉ t) (pad : Text) : hang pad t = t := by
  induction t with
  | nil => rfl
  | cons c t ih =>
    rw [List.mem_cons, not_or] at h
    rw [hang, List.flatMap_cons, if_neg fun he => h.1 he.symm, ← hang, ih h.2]
    rfl

theorem mem_hang {pad t : Text} {c : Char} (h : c ∈ hang pad t) : c ∈ t ∨ c ∈ pad := by
  obtain ⟨d, hd, hc⟩ := List.mem_flatMap.1 h
  split at hc
  · rename_i hnewline
    rcases List.mem_cons.1 hc with rfl | hc
    · exact Or.inl (hnewline ▸ hd)
    · exact Or.inr hc
  · exact Or.inl (List.mem_singleton.1 hc ▸ hd)

theorem count_newline_hang {pad : Text} (hpad : '\n' ∉ pad) (t : Text) :
    (hang pad t).count '\n' = t.count '\n' := by
  induction t with
  | nil => rfl
  | cons c t ih =>
    rw [hang, List.flatMap_cons, ← hang, List.count_append, ih]
    split
    · rename_i hc
      rw [hc, List.count_cons_self, List.count_cons_self, List.count_eq_zero.2 hpad, Nat.add_comm]
    · rename_i hc
      rw [List.count_cons_of_ne hc, List.count_cons_of_ne hc, List.count_nil, Nat.zero_add]

theorem not_mem_spaces {c : Char} (h : c ≠ ' ') (n : Nat) : c ∉ spaces n := fun hmem =>
  h (List.eq_of_mem_replicate hmem)

/-- A line in which every blank is a space, and none stands at the end. -/
structure IsTrimmed (line : Text) : Prop where
  space : ∀ c ∈ line, isBlank c = true → c = ' '
  last : ∀ c, line.getLast? = some c → isBlank c = false

theorem isTrimmed_nil : IsTrimmed [] := ⟨nofun, nofun⟩

theorem IsTrimmed.newline {line : Text} (h : IsTrimmed line) : '\n' ∉ line := fun hmem =>
  absurd (h.space '\n' hmem rfl) (by decide)

theorem IsTrimmed.tab {line : Text} (h : IsTrimmed line) : '\t' ∉ line := fun hmem =>
  absurd (h.space '\t' hmem rfl) (by decide)

theorem IsTrimmed.trimEnd {line : Text} (h : IsTrimmed line) : trimEnd line = line :=
  trimEnd_eq_self h.last

theorem IsTrimmed.eq_nil {line : Text} (h : IsTrimmed line) (hblank : blank line = true) :
    line = [] := by
  refine (List.eq_nil_or_concat' line).resolve_right fun ⟨lead, c, hline⟩ => ?_
  have hlast := h.last c (by rw [hline, List.getLast?_concat])
  rw [List.all_eq_true.1 hblank c (by simp [hline])] at hlast
  cases hlast

theorem IsTrimmed.append {lead t : Text} (hlead : ∀ c ∈ lead, isBlank c = true → c = ' ')
    (h : IsTrimmed t) (hne : t ≠ []) : IsTrimmed (lead ++ t) where
  space c hc := (List.mem_append.1 hc).elim (hlead c) (h.space c)
  last c hc := h.last c (by rwa [List.getLast?_append_of_ne_nil lead hne] at hc)

theorem space_of_isProse {t : Text} (h : isProse t = true) :
    ∀ c ∈ t, isBlank c = true → c = ' ' := fun _ hc hblank =>
  (isProse_mem h hc).resolve_left fun hprose => by
    rw [isBlank_of_isProseCharacter hprose] at hblank
    cases hblank

theorem isTrimmed_of_isProse {t : Text} (h : isProse t = true) : IsTrimmed t :=
  ⟨space_of_isProse h, (isSolid_of_isProse h).blank_last []⟩

/-- A line that ends in prose and does not start like a directive. -/
structure EndsInProse (line : Text) : Prop where
  split : ∃ lead t, line = lead ++ t ∧ isProse t = true ∧ ∀ c ∈ lead, isBlank c = true → c = ' '
  head : line.head? ≠ some '.'

theorem EndsInProse.last {line : Text} (h : EndsInProse line) :
    ∃ c, line.getLast? = some c ∧ isProseCharacter c = true := by
  obtain ⟨lead, t, rfl, ht, -⟩ := h.split
  obtain ⟨u, c, rfl, hc⟩ := isProse_last ht
  exact ⟨c, by rw [← List.append_assoc, List.getLast?_concat], hc⟩

theorem EndsInProse.ne_nil {line : Text} (h : EndsInProse line) : line ≠ [] := by
  rintro rfl
  obtain ⟨c, hc, -⟩ := h.last
  cases hc

theorem EndsInProse.isTrimmed {line : Text} (h : EndsInProse line) : IsTrimmed line := by
  obtain ⟨lead, t, rfl, ht, hlead⟩ := h.split
  exact (isTrimmed_of_isProse ht).append hlead (isSolid_of_isProse ht).ne_nil

theorem IsTrimmed.trim_suffix {line : Text} (h : IsTrimmed line) : trim line <:+ line := by
  rw [trim, h.trimEnd]
  exact List.dropWhile_suffix isBlank

theorem EndsInProse.blank {line : Text} (h : EndsInProse line) : blank line = false := by
  obtain ⟨c, hc, hprose⟩ := h.last
  refine Bool.eq_false_iff.2 fun hblank => ?_
  have hc := List.all_eq_true.1 hblank c (List.mem_of_getLast? hc)
  rw [isBlank_of_isProseCharacter hprose] at hc
  cases hc

/-- A line that ends in prose does so without the blanks around it. -/
theorem EndsInProse.getLast?_trim {line : Text} (h : EndsInProse line) :
    ∃ c, (Text.trim line).getLast? = some c ∧ isProseCharacter c = true := by
  obtain ⟨c, hc, hprose⟩ := h.last
  obtain ⟨lead, hlead⟩ := h.isTrimmed.trim_suffix
  have hne : Text.trim line ≠ [] := by
    intro hnil
    rw [Text.trim, h.isTrimmed.trimEnd, trimStart, List.dropWhile_eq_nil_iff] at hnil
    have hblank : Text.blank line = true := List.all_eq_true.2 hnil
    rw [h.blank] at hblank
    cases hblank
  refine ⟨c, ?_, hprose⟩
  rw [← hlead, List.getLast?_append_of_ne_nil _ hne] at hc
  exact hc

/-- An empty line, or one that ends in prose. -/
theorem isTrimmed_of_prose {line : Text} (h : line = [] ∨ EndsInProse line) : IsTrimmed line := by
  rcases h with rfl | h
  · exact isTrimmed_nil
  · exact h.isTrimmed

theorem EndsInProse.getLast?_ne {line : Text} (h : EndsInProse line) {d : Char}
    (hd : isMark d = true) : line.getLast? ≠ some d := by
  obtain ⟨c, hc, hprose⟩ := h.last
  intro he
  rw [hc] at he
  exact ne_of_isProseCharacter hprose hd (Option.some.inj he)

theorem endsInProse_of_isProse {t : Text} (h : isProse t = true) : EndsInProse t where
  split := ⟨[], t, rfl, h, nofun⟩
  head := by
    obtain ⟨c, u, rfl, hc⟩ := isProse_head h
    exact fun he => ne_of_isProseCharacter hc (by decide) (Option.some.inj he)

theorem space_spaces (n : Nat) : ∀ c ∈ spaces n, isBlank c = true → c = ' ' := fun _ hc _ =>
  List.eq_of_mem_replicate hc

theorem endsInProse_spaces {t : Text} (h : isProse t = true) (n : Nat) :
    EndsInProse (spaces n ++ t) where
  split := ⟨spaces n, t, rfl, h, space_spaces n⟩
  head := by
    cases n with
    | zero => exact (endsInProse_of_isProse h).head
    | succ n => exact fun he => absurd (Option.some.inj he) (by decide)

/-- Lines of prose that are all moved to the right have their places back without the margin;
empty lines after them have none. -/
theorem dedent_pad {lines gap : List Text} (h : ∀ line ∈ lines, isProse line = true)
    (hgap : ∀ line ∈ gap, line = []) (n : Nat) : dedent (pad n lines ++ gap) = lines ++ gap := by
  have hindent : ∀ line ∈ pad n lines, (!line.isEmpty) = true ∧ indent line = n := by
    intro line hline
    obtain ⟨t, ht, rfl⟩ := List.mem_map.1 hline
    have hsolid := isSolid_of_isProse (h t ht)
    exact ⟨by simp [hsolid.ne_nil], hsolid.indent n⟩
  have hempty : gap.filter (fun line => !line.isEmpty) = [] :=
    List.filter_eq_nil_iff.2 fun line hline => by simp [hgap line hline]
  have hfilter : (pad n lines ++ gap).filter (fun line => !line.isEmpty) = pad n lines := by
    rw [List.filter_append, hempty, List.append_nil,
      List.filter_eq_self.2 fun line hline => (hindent line hline).1]
  have hmap : (pad n lines).map indent = List.replicate lines.length n := by
    rw [List.map_eq_replicate_iff.2 fun line hline => (hindent line hline).2, pad, List.length_map]
  have hgapdrop (m : Nat) : gap.map (fun line => line.drop m) = gap :=
    (List.map_congr_left fun line hline => by rw [hgap line hline, List.drop_nil]; rfl).trans
      (List.map_id gap)
  rw [dedent, margin?, hfilter, hmap, List.map_append, hgapdrop]
  refine congrArg (· ++ gap) ?_
  cases lines with
  | nil => rfl
  | cons line more =>
    rw [List.length_cons, List.min?_replicate, if_neg (Nat.succ_ne_zero _), Option.getD_some, pad,
      List.map_map]
    refine (List.map_congr_left fun t _ => ?_).trans (List.map_id _)
    exact List.drop_left' (List.length_replicate ..)

theorem stripEmpty_append {lines gap : List Text} (hhead : lines.head? ≠ some [])
    (hlast : lines.getLast? ≠ some []) (hgap : ∀ line ∈ gap, line = []) :
    stripEmpty (lines ++ gap) = lines := by
  have hempty : ∀ line ∈ gap, line.isEmpty = true := fun line hline => by rw [hgap line hline]; rfl
  have hdrop : dropEndWhile List.isEmpty (lines ++ gap) = lines := by
    rw [dropEndWhile_append hempty]
    refine dropEndWhile_eq_self fun line hline => ?_
    cases line with
    | nil => exact absurd hline hlast
    | cons c t => rfl
  rw [stripEmpty, hdrop]
  cases lines with
  | nil => rfl
  | cons line more =>
    cases line with
    | nil => exact absurd rfl hhead
    | cons c t => rfl

theorem trimEnd_dropReturn (line : Text) : trimEnd (dropReturn line) = trimEnd line := by
  cases h : before? ['\r'] line with
  | none => rw [dropReturn, h, Option.getD_none]
  | some lead =>
    rw [dropReturn, h, Option.getD_some, before?_eq_some_iff.1 h]
    exact (dropEndWhile_append (by simp; decide)).symm

theorem map_trimEnd_closeLines {ls : List Text} (hlast : ls.getLast? ≠ some []) :
    (closeLines ls).map trimEnd = ls.map trimEnd := by
  induction ls with
  | nil => rfl
  | cons line more ih =>
    cases more with
    | nil =>
      have hne : line ≠ [] := fun he => hlast (by rw [he]; rfl)
      rw [closeLines, if_neg (by simpa using hne)]
    | cons next more =>
      have hnext : closeLines (line :: next :: more) =
          dropReturn line :: closeLines (next :: more) := rfl
      rw [hnext, List.map_cons, trimEnd_dropReturn, ih (by simpa using hlast)]
      rfl

/-- A text that does not end in a newline has no empty line at its end. -/
theorem getLast?_splitOn {t : Text} (hne : t ≠ []) (hend : t.getLast? ≠ some '\n') :
    (splitOn '\n' t).getLast? ≠ some [] := by
  intro h
  obtain ⟨init, hinit⟩ := List.getLast?_eq_some_iff.1 h
  have ht := joinWith_splitOn '\n' t
  rw [hinit, ← unlines] at ht
  by_cases hnil : init = []
  · rw [hnil] at ht
    exact hne ht.symm
  · rw [unlines_append hnil (by simp), unlines_singleton] at ht
    exact hend (by rw [← ht, List.getLast?_concat])

theorem closeLines_append (a : List Text) {b : List Text} (hb : b ≠ []) :
    closeLines (a ++ b) = a.map dropReturn ++ closeLines b := by
  induction a with
  | nil => rfl
  | cons line a ih =>
    obtain ⟨next, more, h⟩ := List.exists_cons_of_ne_nil (l := a ++ b) (by simp [hb])
    rw [List.cons_append, h, closeLines, ← h, ih, List.map_cons, List.cons_append]
    exact nofun

theorem prefix_dropReturn (line : Text) : dropReturn line <+: line := by
  unfold dropReturn
  cases h : before? ['\r'] line with
  | none => exact List.prefix_rfl
  | some lead => exact ⟨['\r'], (before?_eq_some_iff.1 h).symm⟩

theorem exists_prefix_of_mem_closeLines {ls : List Text} {line : Text} (h : line ∈ closeLines ls) :
    ∃ piece ∈ ls, line <+: piece := by
  induction ls with
  | nil => cases h
  | cons first more ih =>
    cases more with
    | nil =>
      rw [closeLines] at h
      split at h
      · cases h
      · exact ⟨line, h, List.prefix_rfl⟩
    | cons next more =>
      rcases List.mem_cons.1 h with rfl | h
      · exact ⟨first, List.mem_cons_self, prefix_dropReturn first⟩
      · obtain ⟨piece, hpiece, hpart⟩ := ih h
        exact ⟨piece, List.mem_cons_of_mem first hpiece, hpart⟩

theorem newline_of_mem_lines {t line : Text} (h : line ∈ lines t) : '\n' ∉ line := by
  obtain ⟨piece, hpiece, hpart⟩ := exists_prefix_of_mem_closeLines h
  exact fun hc => (of_mem_splitOn hpiece).1 (hpart.subset hc)

theorem infix_joinWith (sep : Text) {pieces : List Text} {piece : Text} (h : piece ∈ pieces) :
    piece <:+: joinWith sep pieces := by
  induction pieces with
  | nil => cases h
  | cons first more ih =>
    cases more with
    | nil =>
      obtain rfl := List.mem_singleton.1 h
      simp only [joinWith, List.intercalate_singleton, List.infix_rfl]
    | cons next more =>
      rw [joinWith_cons_cons]
      rcases List.mem_cons.1 h with rfl | h
      · exact (List.prefix_append _ _).isInfix
      · exact (ih h).trans (List.append_assoc first sep _ ▸ (List.suffix_append _ _).isInfix)

/-- A line is a part of the text that it was cut from. -/
theorem infix_of_mem_trimmedLines {t line : Text} (h : line ∈ trimmedLines t) : line <:+: t := by
  obtain ⟨l, hl, rfl⟩ := List.mem_map.1 h
  obtain ⟨piece, hpiece, hpart⟩ := exists_prefix_of_mem_closeLines hl
  have htext := infix_joinWith ['\n'] hpiece
  rw [joinWith_splitOn] at htext
  exact ((prefix_dropEndWhile _ l).trans hpart).isInfix.trans htext

/-- A text without newlines that stands in others joined by newlines stands in one of them. -/
theorem exists_infix_of_unlines {t : Text} (hne : t ≠ []) (hnewline : '\n' ∉ t)
    {lines : List Text} (h : t <:+: unlines lines) : ∃ line ∈ lines, t <:+: line := by
  induction lines with
  | nil => exact absurd (List.infix_nil.1 h) hne
  | cons line more ih =>
    cases more with
    | nil => exact ⟨line, List.mem_cons_self, unlines_singleton line ▸ h⟩
    | cons next more =>
      rw [unlines_cons_cons] at h
      obtain ⟨before, after, hsplit⟩ := h
      rw [List.append_assoc] at hsplit
      rcases List.append_eq_append_iff.1 hsplit with ⟨rest, hline, hrest⟩ | ⟨rest, hbefore, hrest⟩
      · rcases List.append_eq_append_iff.1 hrest with ⟨tail, hrest, -⟩ | ⟨tail, ht, hafter⟩
        · exact ⟨line, List.mem_cons_self, before, tail, by rw [hline, hrest, List.append_assoc]⟩
        · cases tail with
          | nil => exact ⟨line, List.mem_cons_self, before, [], by simp [hline, ht]⟩
          | cons c tail =>
            obtain rfl := (List.cons.inj hafter).1
            exact absurd (ht ▸ by simp) hnewline
      · cases rest with
        | nil =>
          cases t with
          | nil => exact absurd rfl hne
          | cons c t =>
            obtain rfl := (List.cons.inj hrest).1
            exact absurd List.mem_cons_self hnewline
        | cons c rest =>
          obtain ⟨found, hfound, hin⟩ :=
            ih ⟨rest, after, by rw [List.append_assoc]; exact (List.cons.inj hrest).2.symm⟩
          exact ⟨found, .tail _ hfound, hin⟩

theorem trimEnd_trimEnd (t : Text) : trimEnd (trimEnd t) = trimEnd t := by
  rw [trimEnd, trimEnd, dropEndWhile_eq, dropEndWhile_eq, List.rdropWhile_idempotent]

theorem newline_of_mem_trimmedLines {t line : Text} (h : line ∈ trimmedLines t) : '\n' ∉ line := by
  obtain ⟨l, hl, rfl⟩ := List.mem_map.1 h
  exact fun hc => newline_of_mem_lines hl ((dropEndWhile_sublist _ _).subset hc)

theorem trimEnd_of_mem_trimmedLines {t line : Text} (h : line ∈ trimmedLines t) :
    trimEnd line = line := by
  obtain ⟨l, -, rfl⟩ := List.mem_map.1 h
  exact trimEnd_trimEnd l

/-- Two texts with an empty line between them. -/
theorem trimmedLines_append {a : Text} (hne : a ≠ []) (hend : a.getLast? ≠ some '\n') (b : Text) :
    trimmedLines (a ++ "\n\n".toList ++ b) = trimmedLines a ++ [] :: trimmedLines b := by
  have hshape : a ++ "\n\n".toList ++ b = a ++ '\n' :: ([] ++ '\n' :: b) := by simp
  have hb : splitOn '\n' b ≠ [] := splitOn_ne_nil '\n' b
  have hlines : lines (a ++ "\n\n".toList ++ b) =
      (splitOn '\n' a).map dropReturn ++ ([[]] ++ lines b) := by
    rw [lines, hshape, splitOn_append_sep, splitOn_append_sep, closeLines_append _ (by simp [hb]),
      closeLines_append _ hb]
    rfl
  have hreturn : (splitOn '\n' a).map (trimEnd ∘ dropReturn) = trimmedLines a := by
    rw [trimmedLines, lines, map_trimEnd_closeLines (getLast?_splitOn hne hend)]
    exact List.map_congr_left fun line _ => trimEnd_dropReturn line
  rw [trimmedLines, hlines, List.map_append, List.map_map, hreturn]
  rfl

/-- The lines of a text that was joined, without the blanks at their ends. -/
theorem trimmedLines_unlines_of_newline {ls : List Text} (h : ∀ l ∈ ls, '\n' ∉ l)
    (hlast : ls.getLast? ≠ some []) : trimmedLines (unlines ls) = ls.map trimEnd := by
  by_cases hne : ls = []
  · subst hne
    rfl
  · rw [trimmedLines, lines, splitOn_unlines hne h, map_trimEnd_closeLines hlast]

/-- The newline behind the last line begins no line. -/
theorem trimmedLines_unlines_concat_nil {ls : List Text} (h : ∀ l ∈ ls, '\n' ∉ l) :
    trimmedLines (unlines (ls ++ [[]])) = ls.map trimEnd := by
  have hall : ∀ l ∈ ls ++ [[]], '\n' ∉ l := fun l hl =>
    (List.mem_append.1 hl).elim (h l) fun hl => List.mem_singleton.1 hl ▸ List.not_mem_nil
  rw [trimmedLines, lines, splitOn_unlines (by simp) hall, closeLines_append _ (by simp),
    List.map_append, List.map_map]
  exact (List.append_nil _).trans (List.map_congr_left fun l _ => trimEnd_dropReturn l)

section Trimmed

variable {ls : List Text}

theorem map_trimEnd (h : ∀ l ∈ ls, IsTrimmed l) : ls.map trimEnd = ls :=
  (List.map_congr_left fun l hl => (h l hl).trimEnd).trans (List.map_id ls)

theorem trimmedLines_unlines (h : ∀ l ∈ ls, IsTrimmed l) (hlast : ls.getLast? ≠ some []) :
    trimmedLines (unlines ls) = ls := by
  rw [trimmedLines_unlines_of_newline (fun l hl => (h l hl).newline) hlast, map_trimEnd h]

theorem trimmedLines_unlines_nil (h : ∀ l ∈ ls, IsTrimmed l) :
    trimmedLines (unlines (ls ++ [[]])) = ls := by
  rw [trimmedLines_unlines_concat_nil fun l hl => (h l hl).newline, map_trimEnd h]

end Trimmed

end CallDoc.Text
