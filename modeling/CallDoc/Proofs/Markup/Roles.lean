import CallDoc.Proofs.Markup.Prose
import CallDoc.Proofs.Markup.Tree

/-!
Reading with more roles. Roles are looked up deep inside the tree, wherever a paragraph or a
rubric is read, and nowhere else. So two readings of one text that differ in the roles they know
go hand in hand, up to the first role that one of them does not know.
-/
namespace CallDoc

/-- The role is standard, or one of those configured. -/
def Role.IsKnown (roles : List Text) (role : Text) : Prop :=
  (standard? role).isSome = true ∨ role ∈ roles

/-- How the result of reading with some roles is related to that with more of them: they are the
same, unless the first is an error about a role that only the second reading knows. -/
structure Widens {α : Type} (roles more : List Text) (r r' : Except Error α) : Prop where
  ok : ∀ a, r = .ok a → r' = .ok a
  error : ∀ e, r = .error e → ∃ role, e = .unknownRole role ∧ ¬ Role.IsKnown roles role ∧
    (r' = .error e ∨ Role.IsKnown more role)

namespace Widens

variable {α β : Type} {roles more : List Text} {r r' : Except Error α}

theorem of_ok (a : α) : Widens roles more (.ok a) (.ok a) :=
  ⟨fun _ h => h, nofun⟩

/-- Readings that go on in the same way from the same result stay related. -/
theorem bind (h : Widens roles more r r') {f f' : α → Except Error β}
    (hf : ∀ a, r = .ok a → Widens roles more (f a) (f' a)) :
    Widens roles more (r >>= f) (r' >>= f') := by
  cases r with
  | ok a =>
    rw [h.ok a rfl]
    exact hf a rfl
  | error e =>
    obtain ⟨role, rfl, hrole, hsame⟩ := h.error e rfl
    refine ⟨nofun, fun e he => ?_⟩
    obtain rfl : Error.unknownRole role = e := Except.error.inj he
    refine ⟨role, rfl, hrole, hsame.imp_left fun hsame => ?_⟩
    rw [hsame]
    rfl

theorem map (h : Widens roles more r r') (f : α → β) :
    Widens roles more (r.map f) (r'.map f) := by
  have hbind := h.bind (f := fun a => .ok (f a)) fun a _ => of_ok (f a)
  cases r <;> cases r' <;> exact hbind

theorem mapM {f f' : α → Except Error β} {l : List α}
    (h : ∀ a ∈ l, Widens roles more (f a) (f' a)) :
    Widens roles more (l.mapM f) (l.mapM f') := by
  induction l with
  | nil => exact of_ok []
  | cons a l ih =>
    obtain ⟨ha, hmore⟩ := List.forall_mem_cons.1 h
    rw [List.mapM_cons, List.mapM_cons]
    exact ha.bind fun b _ => (ih hmore).bind fun bs _ => of_ok (b :: bs)

end Widens

variable {roles more : List Text}

/-! ## Spans -/

namespace Inline

open Text

/-- A backslash takes the meaning from what follows it, or stands for itself at the end. -/
theorem scan_backslash (roles : List Text) (previous? : Option Char) (t : Text) :
    scan roles previous? ('\\' :: t) =
      match t with
      | [] => .ok (Span.consText ['\\'] [])
      | d :: t =>
        if isBlank d then scan roles (some d) t
        else (scan roles (some d) t).map (Span.consText [d]) := by
  cases t <;> rw [scan.eq_def] <;> rfl

variable (h : ∀ role ∈ roles, role ∈ more)
include h

theorem widens_roleSpan (role content : Text) :
    Widens roles more (roleSpan roles role content) (roleSpan more role content) := by
  unfold roleSpan
  cases hstandard : Role.standard? role with
  | some make => exact .of_ok _
  | none =>
    dsimp only
    by_cases hrole : role ∈ roles
    · rw [if_pos (List.contains_iff_mem.2 hrole), if_pos (List.contains_iff_mem.2 (h role hrole))]
      exact .of_ok _
    · rw [if_neg (mt List.contains_iff_mem.1 hrole)]
      refine ⟨nofun, fun e he => ?_⟩
      obtain rfl : Error.unknownRole role = e := Except.error.inj he
      refine ⟨role, rfl, fun hknown => ?_, ?_⟩
      · rcases hknown with hknown | hknown
        · rw [hstandard] at hknown
          cases hknown
        · exact hrole hknown
      · by_cases hmore : role ∈ more
        · exact Or.inr (Or.inr hmore)
        · rw [if_neg (mt List.contains_iff_mem.1 hmore)]
          exact Or.inl rfl

theorem widens_role (t : Text) : Widens roles more (role roles t) (role more t) := by
  unfold role
  cases roleName? t with
  | none => exact .of_ok none
  | some split =>
    obtain ⟨name, inner⟩ := split
    dsimp only
    cases roleContent? inner with
    | none => exact .of_ok none
    | some split =>
      obtain ⟨content, rest⟩ := split
      exact (widens_roleSpan h name content).map _

/-- Only behind a colon roles are looked up. -/
theorem widens_find (t : Text) : Widens roles more (find roles t) (find more t) := by
  unfold find
  split
  · exact .of_ok _
  · split
    · exact .of_ok _
    · split
      · exact .of_ok _
      · exact .of_ok _
      · exact widens_role h _
      · exact .of_ok none

theorem widens_findAfter (previous? : Option Char) (t : Text) :
    Widens roles more (findAfter roles previous? t) (findAfter more previous? t) := by
  unfold findAfter
  split
  · exact widens_find h t
  · exact .of_ok none

/-- By induction on the length of the text: both readings find the same span, and go on in the
shorter text behind it. -/
theorem widens_scan (previous? : Option Char) (t : Text) :
    Widens roles more (scan roles previous? t) (scan more previous? t) := by
  induction hlen : t.length using Nat.strongRecOn generalizing previous? t with
  | ind n ih =>
    subst hlen
    cases t with
    | nil =>
      rw [scan, scan]
      exact .of_ok []
    | cons c t =>
      by_cases hescape : c = '\\'
      · subst hescape
        rw [scan_backslash, scan_backslash]
        cases t with
        | nil => exact .of_ok _
        | cons d t =>
          have hrest := ih t.length (by simp only [List.length_cons]; omega) (some d) t rfl
          dsimp only
          split
          · exact hrest
          · exact hrest.map _
      · rw [scan_cons hescape, scan_cons hescape]
        refine (widens_findAfter h previous? (c :: t)).bind fun found? hfound => ?_
        cases found? with
        | some found => exact (ih _ (found_shorter hfound) _ _ rfl).map _
        | none =>
          have hrest := ih t.length (by simp) (some c) t rfl
          dsimp only
          split
          · exact hrest
          · exact hrest.map _

theorem widens_parse (t : Text) : Widens roles more (parse roles t) (parse more t) :=
  widens_scan h none t

end Inline

/-! ## Blocks -/

section Blocks

variable (h : ∀ role ∈ roles, role ∈ more)
include h

/-- The block of a frame is read alike when its bodies are. -/
theorem Frame.widens_toBlock {read read' : List Line → Except Error (List Block)} {frame : Frame}
    (hread : ∀ body ∈ frame.bodies, Widens roles more (read body) (read' body)) :
    Widens roles more (frame.toBlock roles read) (frame.toBlock more read') := by
  cases frame with
  | paragraph line text => exact (Inline.widens_parse h text).map _
  | rubric line title => exact (Inline.widens_parse h title).map _
  | bullets line bullet items => exact (Widens.mapM (l := items) hread).map _
  | enumerated line sequence bracket start items => exact (Widens.mapM (l := items) hread).map _
  | quote line body => exact (hread body List.mem_cons_self).map _
  | field line role name type body => exact (hread body List.mem_cons_self).map _
  | admonition line label body => exact (hread body List.mem_cons_self).map _
  | literal | doctest | comment => exact .of_ok _

/-- By induction on the weight of the lines: bodies weigh less than the lines they are cut from. -/
theorem Block.widens_ofLines (lines : List Line) :
    Widens roles more (ofLines roles lines) (ofLines more lines) := by
  induction hweight : Line.weight lines using Nat.strongRecOn generalizing lines with
  | ind weight ih =>
    rw [ofLines_eq, ofLines_eq]
    refine Widens.mapM fun frame hframe => Frame.widens_toBlock h fun body hbody => ?_
    exact ih _ (hweight ▸ Frame.cut_weight lines frame hframe body hbody) body rfl

/-- With more roles every text that was read before is read as the same blocks. A text that is not
read holds a role that is not known, and is read with more roles only if that one is among them. -/
theorem Block.parse_moreRoles (t : Text) :
    (∀ blocks, parse roles t = .ok blocks → parse more t = .ok blocks) ∧
      ∀ e, parse roles t = .error e → ∃ role, e = .unknownRole role ∧
        Role.standard? role = none ∧ role ∉ roles ∧ (parse more t = .error e ∨ role ∈ more) := by
  obtain ⟨hok, herror⟩ := widens_ofLines h (Line.ofText t)
  refine ⟨hok, fun e he => ?_⟩
  obtain ⟨role, rfl, hrole, hsame⟩ := herror e he
  obtain ⟨hstandard, hmem⟩ := not_or.1 hrole
  refine ⟨role, rfl, Option.not_isSome_iff_eq_none.1 hstandard, hmem, ?_⟩
  exact hsame.imp_right fun hmore => hmore.resolve_left hstandard

end Blocks

/-- A text that is read with the first roles already, and one whose field takes the second. -/
theorem Block.parse_moreRoles_field :
    let few := ["func".toList]
    let more := ["own".toList, "func".toList]
    let known := "* :func:\x60f\x60\n\n:param x: :math:\x60y\x60".toList
    let unknown := "* :func:\x60f\x60\n\n:param x: :own:\x60y\x60".toList
    (∀ role ∈ few, role ∈ more) ∧
      (∃ blocks, parse few known = .ok blocks ∧ parse more known = .ok blocks) ∧
      ∃ role, parse few unknown = .error (.unknownRole role) ∧ role = "own".toList ∧
        Role.standard? role = none ∧ role ∉ few ∧ ∃ blocks, parse more unknown = .ok blocks := by
  intro few more known unknown
  have hmore : ∀ role ∈ few, role ∈ more := by decide
  have hread : (parse few known).map (fun _ => ()) = .ok () := by decide +kernel
  have hfails : (parse few unknown).map (fun _ => ()) = .error (.unknownRole "own".toList) := by
    decide +kernel
  have hlearned : (parse more unknown).map (fun _ => ()) = .ok () := by decide +kernel
  obtain ⟨blocks, hblocks, -⟩ := map_eq_ok_iff.1 hread
  obtain ⟨learned, hlearned, -⟩ := map_eq_ok_iff.1 hlearned
  have herror := map_eq_error_iff.1 hfails
  obtain ⟨role, hrole, hstandard, hmem, -⟩ := (parse_moreRoles hmore unknown).2 _ herror
  obtain rfl := Error.unknownRole.inj hrole
  exact ⟨hmore, ⟨blocks, hblocks, (parse_moreRoles hmore known).1 blocks hblocks⟩,
    _, herror, rfl, hstandard, hmem, learned, hlearned⟩

end CallDoc
