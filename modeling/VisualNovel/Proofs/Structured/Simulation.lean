import VisualNovel.Proofs.Structured.Obeying

/-!
This module contains what it means that the dispatch loop follows a part of a program in its frame, and how this
is put together: one part behind another, a body and the branches behind it, a condition, and a loop.
-/

namespace VisualNovel
namespace Structured

open Play

/--
The open loops after a part of a program. The end of a macro closes all loops of deeper macros.
-/
def Kept (depth : Nat) (loops loops' : List LoopFrame) : Prop :=
  loops' = loops ∨ loops' = loops.filter (·.depth ≤ depth)

namespace Kept

variable {depth : Nat} {loops loops' loops'' : List LoopFrame} {frame : LoopFrame}

theorem refl : Kept depth loops loops :=
  Or.inl rfl

theorem trans (h : Kept depth loops loops') (h' : Kept depth loops' loops'') : Kept depth loops loops'' := by
  obtain rfl | rfl := h
  . exact h'
  . obtain rfl | rfl := h'
    . exact Or.inr rfl
    . right
      simp [List.filter_filter]

theorem of_cons (hframe : frame.depth ≤ depth) (h : Kept depth (frame :: loops) loops')
    : ∃ loops'', loops' = frame :: loops'' ∧ Kept depth loops loops'' := by
  obtain rfl | rfl := h
  . exact ⟨loops, rfl, refl⟩
  . exists loops.filter (·.depth ≤ depth)
    constructor
    . simp [hframe]
    . exact Or.inr rfl

theorem filter_of_deeper (h : Kept (depth + 1) loops loops')
    : Kept depth loops (loops'.filter (·.depth ≤ depth)) := by
  right
  obtain rfl | rfl := h
  . rfl
  . rw [List.filter_filter]
    apply List.filter_congr
    intro frame _
    simp
    omega

end Kept

/--
A place behind the innermost loop, with its number of open conditionals.
-/
structure Outlet where
  count : Nat
  ifDepth : Nat

/--
A part of a program that ends before the given tags stands in a loop of its frame, and leaves it to the outlet.
-/
structure Inside (c : Cursor) (loops : List LoopFrame) (count ifDepth : Nat) (rest : List Tag)
    (out : Outlet) : Prop where
  top : loops.head?.map LoopFrame.depth = some c.macroDepth
  scanned : ∃ scan, scanLoop 0 0 0 0 rest = some scan ∧ out.count = count + scan.count ∧
    ifDepth = out.ifDepth + scan.closed

variable {table : MacroTable} {bodies : String → Option Program} {act : LeafAction} {inLoop : Bool}
  {c : Cursor} {count ifDepth stop : Nat} {loops loops' : List LoopFrame} {latest : Option Tag}
  {rest : List Tag} {out : Outlet} {vars : Variables}

namespace Inside

theorem kept (h : Inside c loops count ifDepth rest out) (hkept : Kept c.macroDepth loops loops')
    : Inside c loops' count ifDepth rest out := by
  refine { h with top := ?_ }
  have htop := h.top
  cases loops with
  | nil => simp at htop
  | cons frame frames =>
    have hframe : frame.depth = c.macroDepth := by simpa using htop
    obtain ⟨frames', rfl, _⟩ := hkept.of_cons (Nat.le_of_eq hframe)
    exact htop

theorem before_program {p : Program} (hp : p.Valid table bodies inLoop)
    (h : Inside c loops (count + p.tags.length) ifDepth rest out)
    : Inside c loops count ifDepth (p.tags ++ rest) out := by
  refine { h with scanned := ?_ }
  obtain ⟨scan, hscan, hcount, hclosed⟩ := h.scanned
  rw [p.scanLoop_tags hp]
  have := scanLoop_shift 0 p.tags.length 0 0 0 0 rest
  exact ⟨_, by rw [this, hscan, Option.map_some], by simp; omega, by simpa using hclosed⟩

theorem before_branches {o : Branches} (ho : o.Valid table bodies inLoop)
    (h : Inside c loops (count + o.tags.length) ifDepth rest out)
    : Inside c loops count (ifDepth + 1) (o.tags ++ rest) out := by
  refine { h with scanned := ?_ }
  obtain ⟨scan, hscan, hcount, hclosed⟩ := h.scanned
  rw [o.scanLoop_tags ho]
  have := scanLoop_shift 1 o.tags.length 0 0 0 0 rest
  exact ⟨_, by rw [this, hscan, Option.map_some], by simp; omega, by simp; omega⟩

end Inside

theorem drop_succ_of_drop_cons {tags : List Tag} {tag : Tag} (h : tags.drop count = tag :: rest)
    : tags.drop (count + 1) = rest := by
  rw [← List.drop_drop, h, List.drop_one, List.tail_cons]

theorem drop_add_of_drop_append {tags part : List Tag} (h : tags.drop count = part ++ rest)
    : tags.drop (count + part.length) = rest := by
  rw [← List.drop_drop, h, List.drop_left]

/--
A course follows a part of a program that starts with the given loops: it delivers what is played, and gets to
the end of the part, or to the outlet, or to the same fault.
-/
def Simulates (table : MacroTable) (act : LeafAction) (c : Cursor) (inLoop : Bool) (loops : List LoopFrame)
    (stop ifDepth : Nat) (out : Outlet) (course : Course) (played : Played) : Prop :=
  match played.exit with
  | .through => ∃ loops' latest, Kept c.macroDepth loops loops' ∧
    course.Leads table act played.rows
      { cursor := c.moved stop ifDepth loops' latest, vars := played.vars }
  | .left => inLoop = true ∧ ∃ loops' latest, Kept c.macroDepth loops loops' ∧
    course.Leads table act played.rows
      { cursor := c.moved out.count out.ifDepth loops'.tail latest, vars := played.vars }
  | .failed e => course.Fails played.rows e

namespace Simulates

variable {course course' : Course} {played : Played} {mid : Nat}

theorem of_step (hstep : ∀ limit, course (limit + 1) = course' limit)
    (h : Simulates table act c inLoop loops stop ifDepth out course' played)
    : Simulates table act c inLoop loops stop ifDepth out course played := by
  unfold Simulates at *
  split at h
  . obtain ⟨loops', latest, hkept, hleads⟩ := h
    exact ⟨loops', latest, hkept, hleads.of_step hstep⟩
  . obtain ⟨hin, loops', latest, hkept, hleads⟩ := h
    exact ⟨hin, loops', latest, hkept, hleads.of_step hstep⟩
  . exact h.of_step hstep

theorem through (hkept : Kept c.macroDepth loops loops')
    : Simulates table act c inLoop loops stop ifDepth out
        (.of table act { cursor := c.moved stop ifDepth loops' latest, vars })
        { rows := [], vars, exit := .through } :=
  ⟨loops', latest, hkept, Course.leads_refl _⟩

theorem of_kept (hkept : Kept c.macroDepth loops loops')
    (h : Simulates table act c inLoop loops' stop ifDepth out course played)
    : Simulates table act c inLoop loops stop ifDepth out course played := by
  unfold Simulates at *
  split at h
  . obtain ⟨loops'', latest, hkept', hleads⟩ := h
    exact ⟨loops'', latest, hkept.trans hkept', hleads⟩
  . obtain ⟨hin, loops'', latest, hkept', hleads⟩ := h
    exact ⟨hin, loops'', latest, hkept.trans hkept', hleads⟩
  . exact h

theorem of_outside (out' : Outlet)
    (h : Simulates table act c false loops stop ifDepth out course played)
    : Simulates table act c inLoop loops stop ifDepth out' course played := by
  unfold Simulates at *
  split at h
  . exact h
  . cases h.1
  . exact h

theorem of_leads {rows : List Row} {scene : Scene} (hleads : course.Leads table act rows scene)
    (h : Simulates table act c inLoop loops stop ifDepth out (.of table act scene) played)
    : Simulates table act c inLoop loops stop ifDepth out course
        { played with rows := rows ++ played.rows } := by
  unfold Simulates at *
  dsimp only
  split at h
  . obtain ⟨loops', latest, hkept, hleads'⟩ := h
    exact ⟨loops', latest, hkept, hleads.trans hleads'⟩
  . obtain ⟨hin, loops', latest, hkept, hleads'⟩ := h
    exact ⟨hin, loops', latest, hkept, hleads.trans hleads'⟩
  . exact hleads.fails h

theorem andThen (mid : Nat) {next : Variables → Played}
    (h : Simulates table act c inLoop loops mid ifDepth out course played)
    (hnext : ∀ loops' latest vars, Kept c.macroDepth loops loops' →
      Simulates table act c inLoop loops' stop ifDepth out
        (.of table act { cursor := c.moved mid ifDepth loops' latest, vars }) (next vars))
    : Simulates table act c inLoop loops stop ifDepth out course (played.andThen next) := by
  cases hexit : played.exit with
  | through =>
    simp only [Simulates, hexit] at h
    obtain ⟨loops', latest, hkept, hleads⟩ := h
    simp only [Played.andThen, hexit]
    exact ((hnext loops' latest played.vars hkept).of_leads hleads).of_kept hkept
  | left =>
    simp only [Simulates, Played.andThen, hexit] at h ⊢
    exact h
  | failed e =>
    simp only [Simulates, Played.andThen, hexit] at h ⊢
    exact h

theorem close {o : Branches} (ho : o.Valid table bodies inLoop)
    (hunread : c.unread.drop mid = o.tags ++ rest)
    (h : Simulates table act c inLoop loops mid (ifDepth + 1) out course played)
    : Simulates table act c inLoop loops (mid + o.tags.length) ifDepth out course played := by
  cases hexit : played.exit with
  | left =>
    simp only [Simulates, hexit] at h ⊢
    exact h
  | failed e =>
    simp only [Simulates, hexit] at h ⊢
    exact h
  | through =>
    simp only [Simulates, hexit] at h ⊢
    obtain ⟨loops', latest, hkept, hleads⟩ := h
    obtain ⟨latest', hclose⟩ :
        ∃ latest', (Course.of table act
            { cursor := c.moved mid (ifDepth + 1) loops' latest, vars := played.vars }).Leads table act []
          { cursor := c.moved (mid + o.tags.length) ifDepth loops' latest', vars := played.vars } :=
      leads_of_branches ho hunread
    refine ⟨loops', latest', hkept, ?_⟩
    rw [← List.append_nil played.rows]
    exact hleads.trans hclose

theorem branch {condition : String} {line : Nat} {parameters : Option Fields} {yes no : Variables → Course}
    {playYes playNo : Variables → Played}
    (hyes : ∀ vars, Simulates table act c inLoop loops stop ifDepth out (yes vars) (playYes vars))
    (hno : ∀ vars, Simulates table act c inLoop loops stop ifDepth out (no vars) (playNo vars))
    : Simulates table act c inLoop loops stop ifDepth out (.branch condition line parameters vars yes no)
        (playIf condition line parameters vars playYes playNo) := by
  unfold Course.branch playIf
  cases (Expr.evaluateAt condition line parameters).run.run vars with
  | mk result vars' =>
    cases result with
    | error e => exact ⟨0, fun _ => rfl⟩
    | ok value =>
      dsimp only
      by_cases htruthy : value.isTruthy = true
      . rw [if_pos htruthy, if_pos htruthy]
        exact hyes vars'
      . rw [if_neg htruthy, if_neg htruthy]
        exact hno vars'

theorem round_andThen {next : Variables → Played} {frame : LoopFrame} (hframe : frame.depth = c.macroDepth)
    (h : Simulates table act c true (frame :: loops) mid ifDepth ⟨stop, ifDepth⟩ course played)
    (hnext : ∀ loops' latest vars, Simulates table act c inLoop loops' stop ifDepth out
      (.of table act { cursor := c.moved mid ifDepth (frame :: loops') latest, vars }) (next vars))
    : Simulates table act c inLoop loops stop ifDepth out course
        (match played.exit with
          | .left => { played with exit := .through }
          | _ => played.andThen next) := by
  cases hexit : played.exit with
  | through =>
    simp only [Simulates, hexit] at h
    obtain ⟨loops', latest, hkept, hleads⟩ := h
    obtain ⟨loops'', rfl, hkept'⟩ := hkept.of_cons (Nat.le_of_eq hframe)
    simp only [Played.andThen, hexit]
    exact ((hnext loops'' latest played.vars).of_leads hleads).of_kept hkept'
  | left =>
    simp only [Simulates, hexit] at h ⊢
    -- the outlet of the body is the place behind the loop
    obtain ⟨_, loops', latest, hkept, hleads⟩ := h
    obtain ⟨loops'', rfl, hkept'⟩ := hkept.of_cons (Nat.le_of_eq hframe)
    exact ⟨loops'', latest, hkept', hleads⟩
  | failed e =>
    simp only [Simulates, Played.andThen, hexit] at h ⊢
    exact h

theorem rounds {index : String} {round : Variables → Played} {start : Nat} {tail : Tag}
    (htail : Obeyed table .endFor tail) (hunread : c.unread.drop mid = tail :: rest)
    (hround : ∀ frame loops latest vars, frame.depth = c.macroDepth →
      Simulates table act c true (frame :: loops) mid ifDepth ⟨mid + 1, ifDepth⟩
        (.of table act { cursor := c.moved start ifDepth (frame :: loops) latest, vars }) (round vars))
    (count later first : Nat) (hcount : count = first + later + 1) (loops : List LoopFrame)
    (latest : Option Tag) (vars : Variables)
    : Simulates table act c inLoop loops (mid + 1) ifDepth out
        (.of table act {
          cursor := c.moved start ifDepth (openedLoop c start index count first :: loops) latest
          vars := vars.set .temporary index (.ofNat first)
        })
        (playRounds index round first (later + 1) vars) := by
  have hperform : perform tail = do endRound; return .nothing := by rw [perform, htail.1]
  -- the index has been set for one round already, and the induction is on the rounds behind it
  induction later generalizing first loops latest vars with
  | zero =>
    unfold playRounds
    apply round_andThen (openedLoop_depth ..) (hround _ _ _ _ (openedLoop_depth ..))
    intro loops' latest' vars'
    apply of_step (obey hunread htail rfl hperform)
    rw [after_endRound_last _ _ _ _ (by omega), playRounds]
    exact through Kept.refl
  | succ later ih =>
    unfold playRounds
    apply round_andThen (openedLoop_depth ..) (hround _ _ _ _ (openedLoop_depth ..))
    intro loops' latest' vars'
    apply of_step (obey hunread htail rfl hperform)
    rw [after_endRound_again _ _ _ _ (by omega)]
    exact ih (first + 1) (by omega) loops' (some tail) vars'

/-! ### One construct of a program -/

section Construct

variable {call : Tag → Variables → Played} {head tail tag : Tag}

theorem leaf {later : Program} (hunread : c.unread.drop count = tag :: rest) (hplain : tag.isStructural = false)
    (hfind : table.find? tag.name = none)
    (hlater : ∀ vars, Simulates table act c inLoop loops stop ifDepth out
      (.of table act { cursor := c.moved (count + 1) ifDepth loops (some tag), vars })
      (later.playWith act call c.parameters vars))
    : Simulates table act c inLoop loops stop ifDepth out
        (.of table act { cursor := c.moved count ifDepth loops latest, vars })
        ((Program.leaf tag later).playWith act call c.parameters vars) := by
  rw [Program.playWith]
  cases hact : (act tag c.parameters).run.run vars with
  | mk result vars' =>
    cases result with
    | error e => exact fails_of_leaf hunread hfind hplain hact
    | ok => exact (hlater vars').of_leads (leads_of_leaf hunread hfind hplain hact)

theorem leave (hunread : c.unread.drop count = tag :: rest) (hbreak : Obeyed table .breakFor tag)
    (hinside : Inside c loops (count + 1) ifDepth rest out)
    : Simulates table act c true loops stop ifDepth out
        (.of table act { cursor := c.moved count ifDepth loops latest, vars })
        { rows := [], vars, exit := .left } := by
  obtain ⟨scan, hscan, hcount, hclosed⟩ := hinside.scanned
  have htop := hinside.top
  refine ⟨rfl, loops, some tag, Kept.refl, ?_⟩
  apply Course.Leads.of_step (obey hunread hbreak rfl (by rw [perform, hbreak.1]))
  cases loops with
  | nil => simp at htop
  | cons frame frames =>
    rw [hclosed, after_breakLoop (by simpa using htop) (by rw [drop_succ_of_drop_cons hunread, hscan]), hcount]
    exact Course.leads_refl _

theorem loop {rounds : Nat} {body : Program} {round : Variables → Played}
    (hunread : c.unread.drop count = head :: (body.tags ++ tail :: rest)) (hfor : Obeyed table .forLoop head)
    (hrounds : head.value? "loops" = some (.ofNat rounds)) (hbody : body.Valid table bodies true)
    (htail : Obeyed table .endFor tail)
    (hround : ∀ loops latest vars, Inside c loops (count + 1 + body.tags.length) ifDepth (tail :: rest)
        ⟨count + 1 + body.tags.length + 1, ifDepth⟩ →
      Simulates table act c true loops (count + 1 + body.tags.length) ifDepth
        ⟨count + 1 + body.tags.length + 1, ifDepth⟩
        (.of table act { cursor := c.moved (count + 1) ifDepth loops latest, vars }) (round vars))
    : Simulates table act c inLoop loops (count + 1 + body.tags.length + 1) ifDepth out
        (.of table act { cursor := c.moved count ifDepth loops latest, vars })
        (playRounds (indexVariable head) round 0 rounds vars) := by
  have hread := drop_succ_of_drop_cons hunread
  have hscan : scanLoop 0 0 0 0 (tail :: rest) = some { count := 1, closed := 0 } :=
    scanLoop_of_last_endFor _ _ _ _ htail.1
  have hperform : perform head = do startLoop rounds (indexVariable head); return .nothing := by
    rw [perform, hfor.1]
    simp only [hrounds]
    rfl
  apply of_step (obey hunread hfor rfl hperform)
  cases rounds with
  | zero =>
    have hskip : scanLoop 0 0 0 0 (c.unread.drop (count + 1)) = some { count := body.tags.length + 1, closed := 0 } := by
      rw [hread, body.scanLoop_tags hbody, scanLoop_of_last_endFor _ _ _ _ htail.1, Nat.zero_add]
    rw [after_startLoop_zero _ hskip, playRounds]
    exact through Kept.refl
  | succ n =>
    rw [after_startLoop_succ]
    apply rounds htail (drop_add_of_drop_append hread) _ (n + 1) n 0 (by omega)
    intro frame loops latest vars hframe
    exact hround _ latest vars { top := by simp [hframe], scanned := ⟨_, hscan, rfl, rfl⟩ }

theorem choice {condition : String} {body : Program} {others : Branches} {yes no : Variables → Played}
    (hunread : c.unread.drop count = head :: (body.tags ++ (others.tags ++ rest))) (hif : Obeyed table .ifThen head)
    (hcondition : head.string? "exp" = some condition) (hbody : body.Valid table bodies inLoop)
    (hothers : others.Valid table bodies inLoop)
    (hyes : ∀ vars, Simulates table act c inLoop loops (count + 1 + body.tags.length) (ifDepth + 1) out
      (.of table act { cursor := c.moved (count + 1) (ifDepth + 1) loops (some head), vars }) (yes vars))
    (hno : ∀ vars, Simulates table act c inLoop loops stop ifDepth out
      (.after table act (seekBranch head.line 0 body.tags.length (others.tags ++ rest))
        { cursor := c.moved (count + 1) (ifDepth + 1) loops (some head), vars }) (no vars))
    (hstop : stop = count + 1 + body.tags.length + others.tags.length)
    : Simulates table act c inLoop loops stop ifDepth out
        (.of table act { cursor := c.moved count ifDepth loops latest, vars })
        (playIf condition head.line c.parameters vars yes no) := by
  have hread := drop_succ_of_drop_cons hunread
  have hperform : perform head = do enterIf condition; return .nothing := by
    rw [perform, hif.1]
    simp only [hcondition]
    rfl
  apply of_step (obey hunread hif rfl hperform)
  rw [after_enterIf]
  apply branch
  . intro vars
    rw [hstop]
    exact close hothers (drop_add_of_drop_append hread) (hyes vars)
  . intro vars
    rw [hread, body.seekBranch_tags hbody, Nat.zero_add]
    exact hno vars

end Construct

end Simulates

end Structured
end VisualNovel
