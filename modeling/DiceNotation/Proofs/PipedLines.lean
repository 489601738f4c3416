import DiceNotation.Proofs.SessionEvents

/-!
# Lines through a pipe

Lines that open no brace and erase nothing are answered one after the other, as if each had been
thrown on its own, as long as none of them is rejected. A rejected line is not dropped: it stays in
front of the next one, and what the two come to together is all that is shown of them.
-/
namespace DiceNotation

namespace Editor

theorem Chunk.cutBehind_append {α : Type} {ends : α → Bool} {front : List α} {last : α}
    (hfront : ∀ a ∈ front, ends a = false) (hlast : ends last = true) (rest : List α) :
    cutBehind ends (front ++ last :: rest) = (front ++ [last]) :: cutBehind ends rest := by
  induction front with
  | nil => simp [cutBehind, hlast]
  | cons a front ih =>
    obtain ⟨ha, hfront⟩ := List.forall_mem_cons.mp hfront
    simp [cutBehind, ha, ih hfront]

theorem Chunk.ofText_lines {lines : List (List Char)} (h : ∀ line ∈ lines, '\n' ∉ line) :
    Chunk.ofText (lines.flatMap (· ++ ['\n'])) = lines.map fun line => .text (line ++ ['\n']) := by
  induction lines with
  | nil => rfl
  | cons line lines ih =>
    obtain ⟨hline, hlines⟩ := List.forall_mem_cons.mp h
    have hends : ∀ c ∈ line, decide (c = '\n') = false := by
      intro c hc
      exact decide_eq_false (ne_of_mem_of_not_mem hc hline)
    have hrest := ih hlines
    rw [Chunk.ofText] at hrest ⊢
    rw [List.flatMap_cons, List.append_assoc, List.singleton_append,
      Chunk.cutBehind_append hends (decide_eq_true rfl), List.map_cons, hrest, List.map_cons]

theorem LineBuffer.cutLineEnd_append_newline {text : List Char} (h : '\r' ∉ text) :
    cutLineEnd (text ++ ['\n']) = (text, ['\n']) := by
  have hreverse : (text ++ ['\n']).reverse = '\n' :: text.reverse := by simp
  rw [cutLineEnd, hreverse]
  split
  · next rest hline =>
    have hmem : '\r' ∈ text.reverse := by
      rw [(List.cons.inj hline).2]
      exact List.mem_cons_self
    exact absurd (List.mem_reverse.mp hmem) h
  · next rest _ hline => rw [← (List.cons.inj hline).2, List.reverse_reverse]
  · next hother => exact absurd rfl (hother _)

theorem LineBuffer.applyBackspaces_of_not_mem {text : List Char} (h : '\x08' ∉ text) :
    applyBackspaces text = text := by
  rw [applyBackspaces, if_neg]
  simpa using h

end Editor

namespace Session

open Editor

structure PlainLine (line : List Char) : Prop where
  brace : '{' ∉ line
  backspace : '\x08' ∉ line
  carriageReturn : '\r' ∉ line
  newline : '\n' ∉ line

instance (line : List Char) : Decidable (PlainLine line) :=
  decidable_of_iff ('{' ∉ line ∧ '\x08' ∉ line ∧ '\r' ∉ line ∧ '\n' ∉ line)
    ⟨fun ⟨h, h', h'', h'''⟩ => ⟨h, h', h'', h'''⟩, fun ⟨h, h', h'', h'''⟩ => ⟨h, h', h'', h'''⟩⟩

theorem plainLine_nil : PlainLine [] := ⟨by simp, by simp, by simp, by simp⟩

theorem PlainLine.append {front line : List Char} (hfront : PlainLine front)
    (hline : PlainLine line) : PlainLine (front ++ line) where
  brace := List.not_mem_append hfront.brace hline.brace
  backspace := List.not_mem_append hfront.backspace hline.backspace
  carriageReturn := List.not_mem_append hfront.carriageReturn hline.carriageReturn
  newline := List.not_mem_append hfront.newline hline.newline

theorem PlainLine.not_unclosed {line : List Char} (h : PlainLine line) : ¬ Unclosed line := by
  rw [Unclosed, List.count_eq_zero.mpr h.brace]
  exact Nat.not_lt_zero _

/-- The lines that are submitted when some lines are typed behind what is kept: a rejected one is
not, and is kept in front of the next. -/
def submissions (options : Options) (kept : List Char) : List (List Char) → List (List Char)
  | [] => []
  | line :: rest =>
    match LineState.check options (kept ++ line) with
    | .rejected _ => submissions options (kept ++ line) rest
    | _ => (kept ++ line) :: submissions options [] rest

theorem flatMap_bind_congr {α β γ : Type} {m : Type → Type} [Monad m] [LawfulMonad m]
    {left : m (List α)} {right : m (List β)} {f : α → List γ} {g : β → List γ} {a : α} {b : β}
    (h : List.flatMap f <$> left = List.flatMap g <$> right) (hhead : f a = g b) :
    (do let rest ← left; pure (List.flatMap f (a :: rest))) =
      (do let rest ← right; pure (List.flatMap g (b :: rest))) := by
  have happend := congrArg (fun act => (f a ++ ·) <$> act) h
  simpa [hhead] using happend

section

variable {σ : Type} (setup : Setup σ) {kept : List Char}

theorem Event.ofChunk_line {line : List Char} (hkept : PlainLine kept) (hline : PlainLine line) :
    Event.ofChunk setup kept (line ++ ['\n']) =
      match LineState.check setup.options (kept ++ line) with
      | .rejected e => return .refused (kept ++ line) e
      | _ =>
        Event.submitted (kept ++ line) <$>
          solveLine setup.source setup.options (kept ++ line) := by
  have hplain := hkept.append hline
  rw [Event.ofChunk, ← List.append_assoc,
    LineBuffer.cutLineEnd_append_newline hplain.carriageReturn]
  dsimp only
  rw [LineBuffer.applyBackspaces_of_not_mem hplain.backspace]
  cases hcheck : LineState.check setup.options (kept ++ line) with
  | blank | ready | rejected e => rfl
  | unclosed => exact absurd (LineState.check_eq_unclosed_iff.mp hcheck).2 hplain.not_unclosed

theorem Event.output_ofInput {lines : List (List Char)} (hkept : PlainLine kept)
    (hlines : ∀ line ∈ lines, PlainLine line) :
    List.flatMap Event.output <$>
        Event.ofInput setup kept (lines.map fun line => .text (line ++ ['\n'])) =
      List.flatMap shown <$>
        (submissions setup.options kept lines).mapM (solveLine setup.source setup.options) := by
  -- What is kept is left free in the induction: a rejected line adds to it.
  induction lines generalizing kept with
  | nil => simp [Event.ofInput, submissions]
  | cons line lines ih =>
    obtain ⟨hline, hlines⟩ := List.forall_mem_cons.mp hlines
    rw [List.map_cons, Event.ofInput, submissions, Event.ofChunk_line setup hkept hline]
    cases LineState.check setup.options (kept ++ line) with
    | rejected e =>
      have hrest := ih (hkept.append hline) hlines
      simpa [Event.output, Event.kept] using hrest
    | blank | ready | unclosed =>
      have hrest := ih plainLine_nil hlines
      dsimp only
      rw [List.mapM_cons]
      simp only [bind_map_left, map_bind, map_pure]
      exact bind_congr fun answer => flatMap_bind_congr hrest rfl

end

/-- Where no line but the last is rejected, the lines are submitted as they are. A rejected last
one shows nothing. -/
theorem shown_submissions {σ : Type} (source : Source σ) {options : Options}
    {lines : List (List Char)}
    (h : ∀ line ∈ lines.dropLast, ∀ e, LineState.check options line ≠ .rejected e) :
    List.flatMap shown <$> (submissions options [] lines).mapM (solveLine source options) =
      List.flatMap shown <$> lines.mapM (solveLine source options) := by
  induction lines with
  | nil => rfl
  | cons line lines ih =>
    rw [submissions, List.nil_append]
    cases hcheck : LineState.check options line with
    | rejected e =>
      cases lines with
      | nil => simp [submissions, solveLine_of_rejected source hcheck, shown]
      | cons next lines => exact absurd hcheck (h line List.mem_cons_self e)
    | blank | ready | unclosed =>
      have hfront : lines.dropLast ⊆ (line :: lines).dropLast := by
        cases lines with
        | nil => exact List.nil_subset _
        | cons next lines => exact List.subset_cons_self _ _
      have hrest := ih fun other hother => h other (hfront hother)
      dsimp only
      rw [List.mapM_cons, List.mapM_cons]
      simp only [map_bind, map_pure]
      exact bind_congr fun answer => flatMap_bind_congr hrest rfl

/-- The output of a session that is given plain lines. It shows what comes of the submitted lines,
and these are the lines themselves unless one of them is rejected and another follows. -/
theorem output_of_piped_lines {σ : Type} (source : Source σ) {coloured : Bool}
    {arguments : List (List Char)} {files : Files} {settings : Settings}
    (hprepare : prepare coloured arguments files = .ok settings) {lines : List (List Char)}
    (hlines : ∀ line ∈ lines, PlainLine line) (s : σ) :
    let options : Options := { maxCount := settings.maxCount }
    let outcomes (lines : List (List Char)) :=
      ((lines.mapM (solveLine source options)).run s).1.flatMap shown
    let input := Chunk.ofText (lines.flatMap (· ++ ['\n']))
    let report := ((run source coloured arguments files input).run s).1
    report.output = outcomes (submissions options [] lines) ∧
      ((∀ line ∈ lines.dropLast, ∀ e, LineState.check options line ≠ .rejected e) →
        report.output = outcomes lines) := by
  intro options outcomes input report
  have hinput : input = lines.map fun line => .text (line ++ ['\n']) :=
    Chunk.ofText_lines fun line hline => (hlines line hline).newline
  have houtput : report.output = outcomes (submissions options [] lines) := by
    have hevents : events source coloured arguments files input =
        Event.ofInput (setupOf source coloured settings) [] input := by
      rw [events, hprepare]
    have hreport : report = reportOf coloured arguments files input
        ((events source coloured arguments files input).run s).1 :=
      congrArg (fun act => (act.run s).1) (run_eq_reportOf _ _ _ _ _)
    calc report.output
        = ((events source coloured arguments files input).run s).1.flatMap Event.output := by
          rw [hreport, output_reportOf _ _ _ _ hprepare]
      _ = outcomes (submissions options [] lines) := by
          rw [hevents, hinput]
          exact congrArg (fun act => (act.run s).1)
            (Event.output_ofInput (setupOf source coloured settings) plainLine_nil hlines)
  refine ⟨houtput, fun hchecked => ?_⟩
  rw [houtput]
  exact congrArg (fun act => (act.run s).1) (shown_submissions source hchecked)

/-- Under a limit of two dice, a line that is thrown, a blank one and a last one over the limit. -/
theorem output_of_piped_lines_limited :
    let arguments := ["-m".toList, ['2']]
    let lines := ["2d6 : both".toList, [' '], "3d6".toList]
    let options : Options := { maxCount := 2 }
    prepare false arguments {} = .ok { maxCount := 2 } ∧ (∀ line ∈ lines, PlainLine line) ∧
      (∀ line ∈ lines.dropLast, ∀ e, LineState.check options line ≠ .rejected e) ∧
      ∀ (source : Source Nat) (s : Nat),
        let input := Chunk.ofText (lines.flatMap (· ++ ['\n']))
        ((run source false arguments {} input).run s).1.output =
          ((lines.mapM (solveLine source options)).run s).1.flatMap shown := by
  intro arguments lines options
  have hprepare : prepare false arguments {} = .ok { maxCount := 2 } := by
    unfold arguments
    cbv
  have hlines : ∀ line ∈ lines, PlainLine line := by decide
  have hready : LineState.check options "2d6 : both".toList = .ready := by
    unfold options
    cbv
  have hblank : LineState.check options [' '] = .blank := by
    unfold options
    cbv
  have hchecked : ∀ line ∈ lines.dropLast, ∀ e, LineState.check options line ≠ .rejected e := by
    intro line hline e
    rcases List.mem_cons.mp hline with rfl | hline
    · rw [hready]
      simp
    · rw [List.mem_singleton.mp hline, hblank]
      simp
  exact ⟨hprepare, hlines, hchecked, fun source s =>
    (output_of_piped_lines source hprepare hlines s).2 hchecked⟩

/-- A line that is no term by itself becomes the count of the next, and one over the limit swallows
the next altogether. -/
theorem rejected_line_joins_next :
    let source : Source Unit := fun _ => pure 1
    let input (lines : List (List Char)) := Chunk.ofText (lines.flatMap (· ++ ['\n']))
    let unfinished := ["3d".toList, "1d1".toList]
    let overLimit := ["3d1".toList, "1d1".toList]
    ((∀ line ∈ unfinished, PlainLine line) ∧
      ((run source false [] {} (input unfinished)).run ()).1.output ≠
        ((unfinished.mapM (solveLine source {})).run ()).1.flatMap shown) ∧
    ((∀ line ∈ overLimit, PlainLine line) ∧
      ((run source false ["-m".toList, ['2']] {} (input overLimit)).run ()).1.output ≠
        ((overLimit.mapM (solveLine source { maxCount := 2 })).run ()).1.flatMap shown) := by
  intro source input unfinished overLimit
  have hjoined : ((run source false [] {} (input unfinished)).run ()).1.output =
      shown (some (.ok ⟨[.term ⟨⟨3, .sided 1, []⟩, [1, 1, 1]⟩], none⟩)) := by
    unfold source input unfinished
    cbv
  have hswallowed :
      ((run source false ["-m".toList, ['2']] {} (input overLimit)).run ()).1.output = [] := by
    unfold source input overLimit
    cbv
  have halone : ((unfinished.mapM (solveLine source {})).run ()).1.flatMap shown =
      shown (some (.ok ⟨[.term ⟨⟨1, .sided 1, []⟩, [1]⟩], none⟩)) := by
    unfold source unfinished
    cbv
  have halone' : ((overLimit.mapM (solveLine source { maxCount := 2 })).run ()).1.flatMap shown =
      shown (some (.ok ⟨[.term ⟨⟨1, .sided 1, []⟩, [1]⟩], none⟩)) := by
    unfold source overLimit
    cbv
  refine ⟨⟨by decide, ?_⟩, by decide, ?_⟩
  · rw [hjoined, halone]
    cbv
    decide
  · rw [hswallowed, halone']
    cbv
    decide

end Session

end DiceNotation
