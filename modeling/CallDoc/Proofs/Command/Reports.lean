import CallDoc.Command.FileTree
import CallDoc.Command.Perform
import CallDoc.Proofs.Text.Lines

/-!
What is printed about several sources. A source that can be read has a block, its name above its
report, and one that cannot be read has a warning, behind what is logged while it is read. The
canonical forms of the sources are printed with one empty line between two blocks and no other. The
reports are laid out by the place of a source among all of them, read or not, so an empty line comes
before all blocks when the first source is skipped (`perform_doc_text`).
-/
namespace CallDoc.Command

open Text

variable {ι : Type} {around : Surroundings ι} {log : Source → Text} {reader : DocReader}
  {plain : Bool} {files : List Text} {warnings : Text} {found : List Source}

/-- The name of a source above what is printed of it. -/
def block (source : Source) (body : Text) : Text :=
  "==> ".toList ++ source.name ++ " <==\n".toList ++ body

/-- The block of a source that can be read. -/
def reportBlock? (reader : DocReader) (plain : Bool) (source : Source) : Option Text :=
  match reader.readText source.content with
  | .ok doc => some (block source (doc.textReport plain))
  | .error _ => none

/-- The warning about a source that cannot be read. -/
def skipped? (reader : DocReader) (source : Source) : Option Text :=
  match reader.readText source.content with
  | .ok _ => none
  | .error e =>
    some ("warning: skipping ".toList ++ source.name ++ ": ".toList ++ e.message ++ ['\n'])

/-- What separates a block at the given place from what is above it. -/
def separator (place : Nat) : Text := if place = 0 then [] else ['\n']

/-- The reader of the reports. -/
def reportReader (raw : Bool) : DocReader := if raw then .raw else .standard

theorem header_append (place : Nat) (source : Source) (body : Text) :
    header (place == 0) source ++ body = separator place ++ block source body := by
  have happend (gap : Text) : gap ++ "==> ".toList ++ source.name ++ " <==\n".toList ++ body =
      gap ++ block source body := by
    change _ = gap ++ ("==> ".toList ++ source.name ++ " <==\n".toList ++ body)
    simp only [List.append_assoc]
  cases place with
  | zero => exact happend []
  | succ place => exact happend ['\n']

/-- What the blocks of the sources from the given place on add to the output. -/
def laidOut (blockOf? : Source → Option Text) : (place : Nat) → List Source → Text
  | _, [] => []
  | place, source :: more =>
    (blockOf? source).elim [] (separator place ++ ·) ++ laidOut blockOf? (place + 1) more

theorem laidOut_succ (blockOf? : Source → Option Text) (place : Nat) (sources : List Source) :
    laidOut blockOf? (place + 1) sources =
      (sources.filterMap blockOf?).flatMap fun b => '\n' :: b := by
  induction sources generalizing place with
  | nil => rfl
  | cons source more ih =>
    rw [laidOut, ih]
    cases h : blockOf? source with
    | none => rw [List.filterMap_cons_none h]; rfl
    | some b => rw [List.filterMap_cons_some h, List.flatMap_cons]; rfl

theorem append_flatMap_eq_unlines (b : Text) (more : List Text) :
    (b ++ more.flatMap fun b => '\n' :: b) = unlines (b :: more) := by
  induction more generalizing b with
  | nil => rw [unlines_singleton, List.flatMap_nil, List.append_nil]
  | cons next more ih => rw [unlines_cons_cons, ← ih, List.flatMap_cons, List.cons_append]

/-- The first source has no block, but a later one has. -/
def StartsLate (blockOf? : Source → Option Text) (sources : List Source) : Prop :=
  sources.head?.bind blockOf? = none ∧ sources.filterMap blockOf? ≠ []

instance (blockOf? : Source → Option Text) (sources : List Source) :
    Decidable (StartsLate blockOf? sources) :=
  inferInstanceAs (Decidable (_ ∧ _))

theorem not_startsLate_of_some {blockOf? : Source → Option Text} {source : Source} {b : Text}
    (h : blockOf? source = some b) (more : List Source) :
    ¬StartsLate blockOf? (source :: more) :=
  fun hlate => by simp [StartsLate, h] at hlate

theorem startsLate_iff_of_none {blockOf? : Source → Option Text} {source : Source}
    (h : blockOf? source = none) (more : List Source) :
    StartsLate blockOf? (source :: more) ↔ more.filterMap blockOf? ≠ [] := by
  rw [StartsLate, List.filterMap_cons_none h]
  exact and_iff_right h

theorem laidOut_zero (blockOf? : Source → Option Text) (sources : List Source) :
    laidOut blockOf? 0 sources =
      (if StartsLate blockOf? sources then ['\n'] else []) ++
        unlines (sources.filterMap blockOf?) := by
  cases sources with
  | nil => rfl
  | cons source more =>
    rw [laidOut, laidOut_succ]
    cases h : blockOf? source with
    | some b =>
      rw [if_neg (not_startsLate_of_some h more), List.filterMap_cons_some h,
        ← append_flatMap_eq_unlines]
      rfl
    | none =>
      simp only [startsLate_iff_of_none h, List.filterMap_cons_none h, Option.elim_none]
      cases more.filterMap blockOf? with
      | nil => rfl
      | cons b bs =>
        rw [if_pos (List.cons_ne_nil _ _), ← append_flatMap_eq_unlines, List.flatMap_cons]
        rfl

/-- What a source adds to the standard error: what is logged while it is read, and the warning if it
cannot be. -/
def messages (log : Source → Text) (reader : DocReader) (source : Source) : Text :=
  log source ++ (skipped? reader source).getD []

/-- A source that is read adds its block to the output, and one that is not read adds its warning
behind what is logged; neither adds anything else. -/
theorem docStep_text (p : Progress) (place : Nat) (source : Source) :
    docStep log reader (.text plain) true p place source =
      ⟨p.out ++ (reportBlock? reader plain source).elim [] (separator place ++ ·),
        p.err ++ messages log reader source,
        p.failed + (skipped? reader source).toList.length⟩ := by
  unfold docStep messages reportBlock? skipped?
  cases reader.readText source.content with
  | ok doc =>
    dsimp only
    rw [if_pos rfl, List.append_assoc, header_append, Option.getD_none, List.append_nil]
    rfl
  | error e =>
    dsimp only
    rw [Option.elim_none, List.append_nil, Option.getD_some]
    simp only [List.append_assoc, Option.toList_some, List.length_singleton]

theorem docAll_text (p : Progress) (place : Nat) (sources : List Source) :
    docAll log reader (.text plain) true p place sources =
      ⟨p.out ++ laidOut (reportBlock? reader plain) place sources,
        p.err ++ sources.flatMap (messages log reader),
        p.failed + (sources.filterMap (skipped? reader)).length⟩ := by
  induction sources generalizing p place with
  | nil => simp [docAll, laidOut]
  | cons source more ih =>
    have hfailed : (skipped? reader source).toList.length +
        (more.filterMap (skipped? reader)).length =
        ((source :: more).filterMap (skipped? reader)).length := by
      cases h : skipped? reader source with
      | none => rw [List.filterMap_cons_none h, Option.toList_none, List.length_nil, Nat.zero_add]
      | some warning =>
        rw [List.filterMap_cons_some h, Option.toList_some, List.length_singleton,
          List.length_cons, Nat.add_comm]
    rw [docAll, ih, docStep_text, laidOut, ← List.append_assoc, List.flatMap_cons,
      ← List.append_assoc, Nat.add_assoc, hfailed]

theorem normalizeAll_eq (place : Nat) (sources : List Source) :
    normalizeAll true place sources =
      laidOut (fun source =>
        some (block source (DocReader.standard.canonical source.content ++ ['\n'])))
        place sources := by
  induction sources generalizing place with
  | nil => rfl
  | cons source more ih =>
    rw [normalizeAll, ih, laidOut, if_pos rfl, ← List.singleton_append, ← List.append_assoc,
      List.append_assoc (header _ _), header_append]
    rfl

theorem report_of_no_cause (message : Text) :
    (Failure.mk message none).report = "Error: ".toList ++ message ++ ['\n'] :=
  List.append_nil _

theorem unreadable_report (failed total : Nat) :
    (unreadable failed total).report =
      "Error: ".toList ++ ofNat failed ++ " of ".toList ++ ofNat total ++
        " docstring(s) failed to parse\n".toList := by
  have hend : " docstring(s) failed to parse\n".toList =
      " docstring(s) failed to parse".toList ++ ['\n'] := by decide +kernel
  rw [unreadable, report_of_no_cause, hend]
  generalize " docstring(s) failed to parse".toList = said
  simp only [List.append_assoc]

theorem docSources_text (hseveral : 1 < found.length) :
    let skipped := found.filterMap (skipped? reader)
    docSources log reader (.text plain) found =
      ⟨if skipped = [] then 0 else 1, laidOut (reportBlock? reader plain) 0 found,
        found.flatMap (messages log reader) ++
          if skipped = [] then [] else (unreadable skipped.length found.length).report⟩ := by
  intro skipped
  have hheaders : (ReportFormat.text plain != .json && decide (1 < found.length)) = true := by
    rw [decide_eq_true hseveral]
    rfl
  simp only [docSources, hheaders, docAll_text, List.nil_append, Nat.zero_add]
  by_cases h : skipped = []
  · rw [if_pos (List.length_eq_zero_iff.2 h), if_pos h, if_pos h, List.append_nil]
  · rw [if_neg (mt List.length_eq_zero_iff.1 h), if_neg h, if_neg h]

/-- Every source has either a block or a warning. -/
theorem length_blocks_add_length_skipped (sources : List Source) :
    (sources.filterMap (reportBlock? reader plain)).length +
      (sources.filterMap (skipped? reader)).length = sources.length := by
  induction sources with
  | nil => rfl
  | cons source more ih =>
    cases hread : reader.readText source.content with
    | ok doc =>
      rw [List.filterMap_cons_some (by rw [reportBlock?, hread]),
        List.filterMap_cons_none (by rw [skipped?, hread]), List.length_cons, List.length_cons,
        ← ih]
      omega
    | error e =>
      rw [List.filterMap_cons_none (by rw [reportBlock?, hread]),
        List.filterMap_cons_some (by rw [skipped?, hread]), List.length_cons, List.length_cons,
        ← ih]
      omega

theorem withSources_ok (task : List Source → Outcome) :
    withSources (warnings, .ok found) task =
      ⟨(task found).code, (task found).out, warnings ++ (task found).err⟩ :=
  rfl

/-- The canonical forms of several sources stand in blocks with one empty line between two. -/
theorem perform_normalize_text (hfound : sources around files = (warnings, .ok found))
    (hseveral : 1 < found.length) :
    perform around (.normalize files) =
      ⟨0, unlines (found.map fun source =>
        block source (DocReader.standard.canonical source.content ++ ['\n'])), warnings⟩ := by
  obtain ⟨source, more, rfl⟩ :=
    List.exists_cons_of_ne_nil (List.ne_nil_of_length_pos (Nat.zero_lt_of_lt hseveral))
  rw [perform, hfound, withSources_ok]
  simp only [hseveral, decide_true, normalizeAll_eq, laidOut_zero, List.append_nil]
  rw [if_neg (not_startsLate_of_some rfl more), List.nil_append, ← List.filterMap_eq_map']

/-- The reports on several sources, in text, whatever the files and the logger are. The blocks of
those that can be read are printed in their order with one empty line between two. Nothing else is
printed, except that an empty line comes first where the first source is skipped and another is
read. The command fails exactly if a source is skipped, with a warning for each behind what is
logged while it is read, and with their number at the end. -/
theorem perform_doc_text (raw : Bool) {format : Text}
    (hformat : ReportFormat.ofName? format plain = some (.text plain))
    (hfound : sources around files = (warnings, .ok found)) (hseveral : 1 < found.length) :
    let outcome := perform around (.doc files format raw plain)
    let blockOf? := reportBlock? (reportReader raw) plain
    let blocks := found.filterMap blockOf?
    let skipped := found.filterMap (skipped? (reportReader raw))
    outcome.out = (if StartsLate blockOf? found then ['\n'] else []) ++ joinWith ['\n'] blocks ∧
      (outcome.out = joinWith ['\n'] blocks ↔ ¬StartsLate blockOf? found) ∧
      blocks.length + skipped.length = found.length ∧
      (outcome.code ≠ 0 ↔ skipped ≠ []) ∧
      outcome.err = warnings ++ found.flatMap (messages around.readingLog (reportReader raw)) ++
        if skipped = [] then []
        else "Error: ".toList ++ ofNat skipped.length ++ " of ".toList ++ ofNat found.length ++
          " docstring(s) failed to parse\n".toList := by
  intro outcome blockOf? blocks skipped
  have houtcome : outcome = withSources (sources around files)
      (docSources around.readingLog (reportReader raw) (.text plain)) := by
    simp only [outcome, perform, hformat, reportReader]
  rw [hfound, withSources_ok, docSources_text hseveral, laidOut_zero] at houtcome
  have hout : outcome.out =
      (if StartsLate blockOf? found then ['\n'] else []) ++ joinWith ['\n'] blocks := by
    rw [houtcome]
    rfl
  have hcode : outcome.code = if skipped = [] then 0 else 1 := by rw [houtcome]
  refine ⟨hout, ?_, length_blocks_add_length_skipped found, ?_, ?_⟩
  · rw [hout]
    by_cases h : StartsLate blockOf? found <;> simp [h]
  · rw [hcode]
    by_cases h : skipped = [] <;> simp [h]
  · rw [houtcome, unreadable_report, List.append_assoc warnings]

/-- Three files, of which the second cannot be read as documentation. -/
def mixedSources : List Source :=
  [⟨"a.txt".toList, "Adds.".toList⟩, ⟨"b.txt".toList, ":param x: a\n:param x: b".toList⟩,
    ⟨"c.txt".toList, "Copies.".toList⟩]

/-- These files, where no pattern matches and nothing is logged. -/
def mixed : Surroundings (List Text) where
  files := FileTree.system ⟨mixedSources.map fun source => ([source.name], source.content), []⟩
  matching _ := .ok []
  input := .ok []
  readingLog _ := []
  typeLog _ := []

theorem perform_doc_text_mixed :
    let files := mixedSources.map Source.name
    ReportFormat.ofName? "txt".toList true = some (.text true) ∧
      sources mixed files = ([], .ok mixedSources) ∧ 1 < mixedSources.length ∧
      let outcome := perform mixed (.doc files "txt".toList false true)
      outcome.out = "==> a.txt <==\nAdds.\n\n==> c.txt <==\nCopies.\n".toList ∧
        outcome.code ≠ 0 := by
  intro files
  have hformat : ReportFormat.ofName? "txt".toList true = some (.text true) := by decide
  have hfound : sources mixed files = ([], .ok mixedSources) := by decide +kernel
  have hseveral : 1 < mixedSources.length := by decide
  obtain ⟨-, hout, -, hcode, -⟩ := perform_doc_text false hformat hfound hseveral
  refine ⟨hformat, hfound, hseveral, (hout.2 (by decide +kernel)).trans ?_, hcode.2 ?_⟩
  · decide +kernel
  · decide +kernel

/-- A first file that is skipped leaves an empty line above the block of the other. -/
theorem perform_doc_text_late :
    let outcome :=
      perform mixed (.doc ["b.txt".toList, "c.txt".toList] "text".toList false false)
    outcome.out = "\n==> c.txt <==\nCopies.\n".toList ∧
      outcome.out ≠ joinWith ['\n'] ["==> c.txt <==\nCopies.\n".toList] ∧
      outcome.err = ("warning: skipping b.txt: param defined twice for x\n" ++
        "Error: 1 of 2 docstring(s) failed to parse\n").toList := by
  decide +kernel

end CallDoc.Command
