import VisualNovel.Proofs.Playing.Characters

/-!
This module contains the proof that text is told as it is written or printed, except for the mark of expressions.
-/

namespace VisualNovel

variable {H K : Type}

namespace Conducting

theorem run_runScript_print {c : Conductor H} {body : String} {line : Nat} {value : Value} {vars : Variables}
    (hvalue : (Expr.evaluateAt body line (c.cursor.bind Cursor.parameters)).run.run c.vars = (.ok value, vars))
    : (runScript (.script body true line)).run.run c
        =
      (.ok (), { c with vars, printed := c.printed ++ value.display.toList.map (Tag.ofChar · line) }) := by
  have hrun := run_onVariables (Expr.evaluateAt body line) c
  rw [hvalue] at hrun
  unfold runScript
  change ((onVariables (Expr.evaluateAt body line) >>= _).run.run c) = _
  rw [run_bind, hrun]
  rfl

theorem run_decide_script {m c d : Conductor H} {body : String} {print : Bool} {line : Nat}
    (hnext : nextTag.run.run m = (.ok (some (.script body print line)), c))
    (hplayed : (runScript (.script body print line)).run.run c = (.ok (), d))
    : decide.run.run m = (.ok .goOn, d) := by
  have hverdict : (verdict (.script body print line) : Conducting H Verdict)
      = (do runScript (.script body print line); return .goOn) :=
    rfl
  unfold decide
  rw [run_bind, hnext]
  dsimp only
  rw [hverdict, run_bind, hplayed]
  rfl

end Conducting

namespace Conductor

/--
A conductor is about to play a line of text, or a line that prints the value of an expression. The tags of the
line stand where the conductor is, in the script or in the body of a macro.
-/
inductive Upcoming (c : Conductor K) : Nat → List Char → List Tag → Prop where
  | text {grammar : Grammar} {l : SourceLine} {cs : List Char} {marks : Nat} {following : List SourceLine}
    {construct : Construct following} {cursor : Cursor} {rest : List Tag} (hspells : grammar.Spells l cs)
    (hread : grammar.reader marks l following = .ok construct) (hcursor : c.cursor = some cursor)
    (hprinted : c.printed = []) (hplace : cursor.unread = construct.tags ++ rest)
    : Upcoming c l.number cs (.lineBreak l.number :: rest)
  | print {l : SourceLine} {source : List Char} {marks : Nat} {following : List SourceLine}
    {construct : Construct following} {cursor : Cursor} {rest : List Tag} {value : Value} {vars : Variables}
    (hsource : l.trimmed = '=' :: source) (hread : Grammar.line.reader marks l following = .ok construct)
    (hcursor : c.cursor = some cursor) (hprinted : c.printed = [])
    (hplace : cursor.unread = construct.tags ++ rest)
    (hvalue : (Expr.evaluateAt (String.ofList (Text.trim source)) l.number cursor.parameters).run.run c.vars =
      (.ok value, vars))
    : Upcoming c l.number value.display.toList rest

variable {view : K → H} {deeds : String → Option (Deed H)} {c : Conductor K} {m : Conductor H} {line : Nat}
  {cs : List Char} {rest : List Tag}

theorem next_of_print (deeds : String → Option (Deed H)) {body : String} {cursor : Cursor} {value : Value}
    {vars : Variables} (hprinted : m.printed = []) (hcursor : m.cursor = some cursor)
    (hunread : cursor.unread = .script body true line :: rest)
    (hfind : m.library.macros.find? Directive.script.name = none)
    (hvalue : (Expr.evaluateAt body line cursor.parameters).run.run m.vars = (.ok value, vars))
    : (m.next deeds).1 = none ∧
        (m.next deeds).2.ahead = value.display.toList.map (Tag.ofChar · line) ++ rest ∧
        (m.next deeds).2.printed = value.display.toList.map (Tag.ofChar · line) := by
  have hahead : m.ahead = .script body true line :: rest := by
    simp [ahead, hprinted, hcursor, hunread]
  obtain ⟨d, hnext, hd, hdprinted, _, hvars, hparameters⟩ :=
    Conducting.run_nextTag_of_ahead hahead fun _ => hfind
  have hevaluated : (Expr.evaluateAt body line (d.cursor.bind Cursor.parameters)).run.run d.vars
      = (.ok value, vars) := by
    rw [hparameters, hvars, hcursor]
    exact hvalue
  have hplayed := Conducting.run_runScript_print hevaluated
  rw [next, Conducting.run_decide_script hnext hplayed]
  rw [hprinted] at hdprinted
  refine ⟨rfl, ?_, ?_⟩
  . rw [← hd]
    simp [ahead, hdprinted]
  . simp [hdprinted]

/--
In a script that has been parsed, a text is upcoming where the construct of its line starts.
-/
theorem upcoming_of_parse {grammar : Grammar} {source : String} {before tags : List Tag} {marks : Nat}
    {l : SourceLine} {following : List SourceLine} {cursor : Cursor} (hspells : grammar.Spells l cs)
    (hparse : grammar.parse source = .ok tags)
    (hreads : grammar.Reads 0 (sourceLines source) before marks (l :: following))
    (hcursor : c.cursor = some cursor) (hprinted : c.printed = [])
    (hunread : cursor.unread = tags.drop before.length)
    : ∃ behind, c.Upcoming l.number cs (.lineBreak l.number :: behind) := by
  obtain ⟨behind, htags⟩ := Grammar.parse_text hparse hreads hspells
  refine ⟨behind, .text hspells (hspells.read marks following) hcursor hprinted ?_⟩
  rw [hunread, htags, List.drop_left]
  simp [Construct.single]

theorem Upcoming.course (h : c.Upcoming line cs rest) (view : K → H) (deeds : String → Option (Deed H))
    (hmacros : ∀ directive : Directive, c.library.macros.find? directive.name = none)
    : ∃ n, (c.moment view).happenings deeds n = [] ∧
        ((c.moment view).after deeds n).ahead = cs.map (Tag.ofChar · line) ++ rest ∧
        (cs.length ≤ ((c.moment view).after deeds n).printed.length ∨
          ((c.moment view).after deeds n).library.macros.find? Directive.char.name = none) := by
  cases h with
  | @text grammar l cs marks following construct cursor rest hspells hread hcursor hprinted hplace =>
    refine ⟨0, rfl, ?_, Or.inr (hmacros .char)⟩
    rw [hspells.read] at hread
    cases hread
    have hunread : cursor.unread = cs.map (Tag.ofChar · l.number) ++ .lineBreak l.number :: rest := by
      simpa [Construct.single] using hplace
    simp [after, ahead, moment, within, hprinted, hcursor, hunread]
  | @print l source marks following construct cursor rest value vars hsource hread hcursor hprinted hplace
      hvalue =>
    rw [Grammar.reader, Grammar.Line.read_print hsource] at hread
    cases hread
    obtain ⟨hnone, hahead, hprinted'⟩ := next_of_print (m := c.moment view) deeds hprinted hcursor hplace
      (hmacros .script) hvalue
    refine ⟨1, ?_, hahead, Or.inl ?_⟩
    . simp [happenings, hnone]
    . have hlength : ((c.moment view).next deeds).2.printed.length = value.display.toList.length := by
        rw [hprinted', List.length_map]
      exact Nat.le_of_eq hlength.symm

/--
A text is told character by character up to a mark of expressions, for which the action that shows text is not
called. So a text is told as it is written if and only if the mark is not in it.
-/
theorem text_told_iff (hready : Ready view deeds c) {deed : Deed H}
    (hdeed : deeds Directive.char.name = some deed) (hparameters : deed.parameters = [textParameter])
    (hmacros : ∀ directive : Directive, c.library.macros.find? directive.name = none)
    (hupcoming : c.Upcoming line cs rest)
    : (∀ happenings d, Run c happenings d → Tells (Happening.Renders line) line rest cs happenings) ∧
        (∃ happenings d, Run c happenings d ∧ happenings.length = cs.length) ∧
        ((∀ happenings d, Run c happenings d → Tells (Happening.Shows line) line rest cs happenings) ↔
          Tag.deferredMark ∉ cs) := by
  obtain ⟨n, hnone, hahead, hfind⟩ := hupcoming.course view deeds hmacros
  obtain ⟨htells, hlength⟩ := tells_happenings hdeed hparameters hahead hfind
  have hcourse : (c.moment view).happenings deeds (n + cs.length)
      = ((c.moment view).after deeds n).happenings deeds cs.length := by
    rw [happenings_add, hnone, List.nil_append]
  rw [← hcourse] at htells hlength
  have hrenders : ∀ happenings d, Run c happenings d →
      Tells (Happening.Renders line) line rest cs happenings := by
    intro happenings d hrun
    obtain ⟨n', heq, _⟩ := hrun.reaches hready.sound (At.of_pending_none hready.pending)
    apply htells.of_comparable (Nat.le_of_eq hlength.symm)
    rw [heq]
    -- the run may end within the text or behind it
    obtain hle | hle := Nat.le_total n' (n + cs.length)
    . exact Or.inl (happenings_mono deeds hle _)
    . exact Or.inr (happenings_mono deeds hle _)
  obtain ⟨d, hrun, _⟩ := exists_happenings (n + cs.length) hready.sound (At.of_pending_none hready.pending)
  refine ⟨hrenders, ⟨_, d, hrun, hlength⟩, ?_, ?_⟩
  . intro hshows
    exact htells.mark_not_mem (hshows _ d hrun) (Nat.le_of_eq hlength.symm)
  . intro hmark happenings d hrun
    apply (hrenders happenings d hrun).imp
    intro ch hch later h hplayed
    have hother : ch ≠ Tag.deferredMark := fun heq => hmark (heq ▸ hch)
    simpa [Happening.Renders, hother] using hplayed

theorem text_told_sample
    : let l : SourceLine := { number := 1, text := ['Q', '&', 'A'] }
      let rest : List Tag := [.lineBreak 1, .stop 2]
      let c := { sample promptAction with
        cursor := some { file := "", tags := l.text.map (Tag.ofChar · 1) ++ rest, maxDepth := 64 }
        printed := [] }
      (∀ happenings d, Run c happenings d → Tells (Happening.Renders 1) 1 rest l.text happenings) ∧
        (∃ happenings d, Run c happenings d ∧ happenings.length = l.text.length) ∧
        ((∀ happenings d, Run c happenings d → Tells (Happening.Shows 1) 1 rest l.text happenings) ↔
          Tag.deferredMark ∉ l.text) := by
  intro l rest c
  have hsample := sample_ready promptAction_does
  have hready : Ready id sampleDeeds c :=
    { realizes := hsample.realizes, closed := hsample.closed, script := by simp [c], pending := rfl }
  have hspells : Grammar.line.Spells l l.text :=
    { text := rfl
      visible := by decide
      unmarked := by intro ch h; cases h; decide
      notDelimiter := by decide }
  exact text_told_iff hready rfl rfl (by intro directive; rfl)
    (.text hspells (hspells.read 0 []) rfl rfl rfl)

end Conductor
end VisualNovel
