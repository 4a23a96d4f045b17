import VisualNovel.Proofs.Structured.Simulation

/-!
This module contains the proof that the dispatch loop follows structured programs, wherever these stand in a
script or in a macro.
-/

namespace VisualNovel
namespace Structured

open Play

variable {table : MacroTable} {bodies : String → Option Program} {act : LeafAction} {c : Cursor}
  {call : Tag → Variables → Played}

/--
What calls come to is followed from anywhere in a frame.
-/
def CallsSimulated (table : MacroTable) (bodies : String → Option Program) (act : LeafAction) (c : Cursor)
    (call : Tag → Variables → Played) : Prop :=
  ∀ tag m body rest count ifDepth loops latest vars out,
    table.find? tag.name = some m → bodies tag.name = some body → m.tags = body.tags →
    c.unread.drop count = tag :: rest →
    Simulates table act c false loops (count + 1) ifDepth out
      (.of table act { cursor := c.moved count ifDepth loops latest, vars }) (call tag vars)

mutual

/--
The dispatch loop follows a program anywhere in a frame.
-/
theorem Program.simulated {inLoop : Bool} (p : Program) (hp : p.Valid table bodies inLoop)
    (hcalls : CallsSimulated table bodies act c call) {rest : List Tag} {count ifDepth stop : Nat}
    {loops : List LoopFrame} {out : Outlet} {latest : Option Tag} {vars : Variables}
    (hunread : c.unread.drop count = p.tags ++ rest) (hstop : stop = count + p.tags.length)
    (hin : inLoop = true → Inside c loops stop ifDepth rest out)
    : Simulates table act c inLoop loops stop ifDepth out
        (.of table act { cursor := c.moved count ifDepth loops latest, vars })
        (p.playWith act call c.parameters vars) := by
  cases p with
  | done =>
    rw [Program.playWith, hstop]
    exact Simulates.through Kept.refl
  | leaf tag later =>
    obtain ⟨⟨hplain, hfind⟩, hlater⟩ := hp
    have hstop : stop = count + 1 + later.tags.length := by
      simp [hstop, Program.tags]
      omega
    apply Simulates.leaf hunread hplain hfind
    intro vars
    exact later.simulated hlater hcalls (drop_succ_of_drop_cons hunread) hstop hin
  | call tag later =>
    obtain ⟨⟨_, m, body, hfind, hbody, htags⟩, hlater⟩ := hp
    have hstop : stop = count + 1 + later.tags.length := by
      simp [hstop, Program.tags]
      omega
    rw [Program.playWith]
    apply Simulates.andThen (count + 1)
    . exact (hcalls tag m body _ count ifDepth loops latest vars out hfind hbody htags hunread).of_outside out
    . intro loops' latest' vars' hkept
      exact later.simulated hlater hcalls (drop_succ_of_drop_cons hunread) hstop fun h => (hin h).kept hkept
  | leave tag later =>
    obtain ⟨⟨rfl, hbreak⟩, hlater⟩ := hp
    have hstop : stop = count + 1 + later.tags.length := by
      simp [hstop, Program.tags]
      omega
    subst hstop
    rw [Program.playWith]
    -- the scan for the end of the loop passes the rest of this part and comes to the outlet
    exact Simulates.leave hunread hbreak ((hin rfl).before_program hlater)
  | loop head rounds body tail later =>
    obtain ⟨⟨hfor, hrounds⟩, hbody, htail, hlater⟩ := hp
    have hunread : c.unread.drop count = head :: (body.tags ++ tail :: (later.tags ++ rest)) := by
      simp [hunread, Program.tags]
    have hstop : stop = count + 1 + body.tags.length + 1 + later.tags.length := by
      simp [hstop, Program.tags]
      omega
    have hread := drop_succ_of_drop_cons hunread
    have hbehind := drop_succ_of_drop_cons (drop_add_of_drop_append hread)
    rw [Program.playWith]
    apply Simulates.andThen (count + 1 + body.tags.length + 1)
    . apply Simulates.loop hunread hfor hrounds hbody htail
      intro loops latest vars hinside
      exact body.simulated hbody hcalls hread rfl fun _ => hinside
    . intro loops' latest' vars' hkept
      exact later.simulated hlater hcalls hbehind hstop fun h => (hin h).kept hkept
  | choice head condition body others later =>
    obtain ⟨⟨hif, hcondition⟩, hbody, hothers, hlater⟩ := hp
    have hunread : c.unread.drop count = head :: (body.tags ++ (others.tags ++ (later.tags ++ rest))) := by
      simp [hunread, Program.tags]
    have hstop : stop = count + 1 + body.tags.length + others.tags.length + later.tags.length := by
      simp [hstop, Program.tags]
      omega
    have hread := drop_succ_of_drop_cons hunread
    have hend := drop_add_of_drop_append hread
    have hbehind := drop_add_of_drop_append hend
    subst hstop
    rw [Program.playWith]
    apply Simulates.andThen (count + 1 + body.tags.length + others.tags.length)
    . refine Simulates.choice hunread hif hcondition hbody hothers (fun vars => ?_) (fun vars => ?_) rfl
      . apply body.simulated hbody hcalls hread rfl
        intro h
        exact ((hin h).before_program hlater).before_branches hothers
      . apply others.simulated hothers hcalls hend rfl
        intro h
        exact (hin h).before_program hlater
    . intro loops' latest' vars' hkept
      exact later.simulated hlater hcalls hbehind rfl fun h => (hin h).kept hkept

theorem Branches.simulated {inLoop : Bool} (o : Branches) (ho : o.Valid table bodies inLoop)
    (hcalls : CallsSimulated table bodies act c call) {rest : List Tag} {count ifDepth line passed stop : Nat}
    {loops : List LoopFrame} {out : Outlet} {latest : Option Tag} {vars : Variables}
    (hunread : c.unread.drop (count + passed) = o.tags ++ rest) (hstop : stop = count + passed + o.tags.length)
    (hin : inLoop = true → Inside c loops stop ifDepth rest out)
    : Simulates table act c inLoop loops stop ifDepth out
        (.after table act (seekBranch line 0 passed (o.tags ++ rest))
          { cursor := c.moved count (ifDepth + 1) loops latest, vars })
        (o.playWith act call c.parameters vars) := by
  cases o with
  | close tail =>
    rw [Branches.tags, List.singleton_append, after_seekBranch_endIf _ _ ho.1, Branches.playWith, hstop]
    exact Simulates.through Kept.refl
  | otherwise head body tail =>
    obtain ⟨hother, hbody, htail⟩ := ho
    have hclose : (Branches.close tail).Valid table bodies inLoop := htail
    have htags : (Branches.otherwise head body tail).tags ++ rest
        = head :: (body.tags ++ ((Branches.close tail).tags ++ rest)) := by
      simp [Branches.tags]
    have hstop : stop = count + (passed + 1) + body.tags.length + (Branches.close tail).tags.length := by
      simp [hstop, Branches.tags]
      omega
    rw [htags] at hunread ⊢
    have hread : c.unread.drop (count + (passed + 1)) = body.tags ++ ((Branches.close tail).tags ++ rest) :=
      drop_succ_of_drop_cons hunread
    subst hstop
    rw [after_seekBranch_otherwise _ _ hother.1, Branches.playWith]
    apply Simulates.close hclose (drop_add_of_drop_append hread)
    apply body.simulated hbody hcalls hread rfl
    intro h
    exact (hin h).before_branches hclose
  | elsif head condition body others =>
    obtain ⟨⟨helsif, hcondition⟩, hbody, hothers⟩ := ho
    have htags : (Branches.elsif head condition body others).tags ++ rest
        = head :: (body.tags ++ (others.tags ++ rest)) := by
      simp [Branches.tags]
    have hstop : stop = count + (passed + 1) + body.tags.length + others.tags.length := by
      simp [hstop, Branches.tags]
      omega
    rw [htags] at hunread ⊢
    have hread : c.unread.drop (count + (passed + 1)) = body.tags ++ (others.tags ++ rest) :=
      drop_succ_of_drop_cons hunread
    have hend := drop_add_of_drop_append hread
    subst hstop
    rw [after_seekBranch_elsif _ _ helsif.1 hcondition, Branches.playWith]
    apply Simulates.branch
    . intro vars
      apply Simulates.close hothers hend
      apply body.simulated hbody hcalls hread rfl
      intro h
      exact (hin h).before_branches hothers
    . intro vars
      rw [body.seekBranch_tags hbody]
      rw [Nat.add_assoc count] at hend
      exact others.simulated hothers hcalls hend (by rw [Nat.add_assoc count]) hin

end

theorem playCall_zero {tag : Tag} {m : Macro} (hfind : table.find? tag.name = some m) (limit : Nat)
    (vars : Variables)
    : playCall table bodies act limit 0 tag vars
        =
      { rows := [], vars, exit := .failed (.macroDepth m.name limit) } := by
  unfold playCall
  simp only [hfind]

theorem playCall_succ {tag : Tag} {m : Macro} {body : Program} (hfind : table.find? tag.name = some m)
    (hbody : bodies tag.name = some body) (limit room : Nat) (vars : Variables)
    : playCall table bodies act limit (room + 1) tag vars
        =
      body.playWith act (playCall table bodies act limit room) (some tag.values) vars := by
  unfold playCall
  simp only [hfind, hbody]

theorem Simulates.of_body {course : Course} {played : Played} {count ifDepth stop : Nat}
    {loops : List LoopFrame} {latest : Option Tag} {m : Macro} {parameters : Fields} {d : Cursor}
    {out out' : Outlet} (hd : (c.moved count ifDepth loops latest).enter m parameters = d)
    (hstop : stop = m.tags.length) (h : Simulates table act d false loops stop ifDepth out course played)
    : Simulates table act c false loops (count + 1) ifDepth out' course played := by
  subst hd hstop
  cases hexit : played.exit with
  | left =>
    simp only [Simulates, hexit] at h
    cases h.1
  | failed e =>
    simp only [Simulates, hexit] at h ⊢
    exact h
  | through =>
    simp only [Simulates, hexit] at h ⊢
    obtain ⟨loops', latest', hkept, hleads⟩ := h
    generalize hend : ((c.moved count ifDepth loops latest).enter m parameters).moved m.tags.length ifDepth
      loops' latest' = last at hleads
    -- nothing of the macro is left, so the next tag is looked for behind the call
    have hunread : last.unread = [] := by simp [← hend]
    have hmacros : last.macros ≠ [] := by
      intro hnil
      have hdepth : last.macroDepth = c.macroDepth + 1 := by simp [← hend]
      simp [Cursor.macroDepth, hnil] at hdepth
    have hclose : Course.of table act { cursor := last, vars := played.vars }
        = .of table act { cursor := last.closeMacro, vars := played.vars } :=
      of_frame_end hunread hmacros
    rw [← hend, Cursor.closeMacro_moved_enter, hend] at hclose
    refine ⟨_, latest', Kept.filter_of_deeper (by simpa using hkept), ?_⟩
    rw [← List.append_nil played.rows]
    apply hleads.trans
    rw [hclose]
    exact Course.leads_refl _

theorem callsSimulated (known : Bodies table) (room : Nat) (hroom : c.maxDepth - c.macroDepth = room)
    : CallsSimulated table known.find? act c (playCall table known.find? act c.maxDepth room) := by
  -- the body of a macro has one level less for its own calls
  induction room generalizing c with
  | zero =>
    intro tag m body rest count ifDepth loops latest vars out hfind _ _ hunread
    rw [playCall_zero hfind]
    exact fails_of_too_deep hunread hfind (by omega)
  | succ room ih =>
    intro tag m body rest count ifDepth loops latest vars out hfind hbody htags hunread
    rw [playCall_succ hfind hbody, of_call hunread hfind (by omega)]
    have hzero := c.moved_zero_enter count ifDepth loops latest m tag.values
    generalize hd : (c.moved count ifDepth loops latest).enter m tag.values = d at hzero ⊢
    have hdepth : d.macroDepth = c.macroDepth + 1 := by simp [← hd]
    have hmax : d.maxDepth = c.maxDepth := by simp [← hd]
    have hparameters : d.parameters = some tag.values := by simp [← hd]
    have hread : d.unread.drop 0 = body.tags ++ [] := by simp [← hd, htags]
    have hplay : Simulates table act d false loops (0 + body.tags.length) ifDepth out
        (.of table act { cursor := d.moved 0 ifDepth loops latest, vars }) _ :=
      body.simulated (known.valid _ _ hbody) (ih (by omega)) hread rfl nofun
    rw [hzero, hmax, hparameters] at hplay
    exact hplay.of_body hd (by simp [htags])

theorem Program.play_simulated (known : Bodies table) (act : LeafAction) (p : Program)
    (hp : p.Valid table known.find? false) (scene : Scene) (rest : List Tag)
    (h : scene.cursor.unread = p.tags ++ rest)
    : Simulates table act scene.cursor false scene.cursor.loops p.tags.length scene.cursor.ifDepth ⟨0, 0⟩
        (.of table act scene)
        (p.play table known.find? act scene.cursor.maxDepth
          (scene.cursor.maxDepth - scene.cursor.macroDepth) scene.cursor.parameters scene.vars) := by
  have hcalls : CallsSimulated table known.find? act scene.cursor _ := callsSimulated known _ rfl
  have hread : scene.cursor.unread.drop 0 = p.tags ++ rest := h
  have hplay : Simulates table act scene.cursor false scene.cursor.loops p.tags.length scene.cursor.ifDepth ⟨0, 0⟩
      (.of table act {
        cursor := scene.cursor.moved 0 scene.cursor.ifDepth scene.cursor.loops scene.cursor.latest
        vars := scene.vars
      }) _ :=
    p.simulated hp hcalls hread (Nat.zero_add _).symm nofun
  rw [Cursor.moved_zero] at hplay
  exact hplay

/--
For every program, wherever it stands in a script or in a macro, the dispatch loop delivers the leaves that the
program plays, each with its parameters and variables. Then it goes on behind the program with the variables of
its end, unless the program ends at a fault.
-/
theorem drive_eq_play (known : Bodies table) (act : LeafAction) (p : Program)
    (hp : p.Valid table known.find? false) (scene : Scene) (rest : List Tag)
    (h : scene.cursor.unread = p.tags ++ rest)
    : let c := scene.cursor
      let played := p.play table known.find? act c.maxDepth (c.maxDepth - c.macroDepth) c.parameters scene.vars
      match played.exit with
      | .through => ∃ n loops latest, Kept c.macroDepth c.loops loops ∧
        let behind := { cursor := c.moved p.tags.length c.ifDepth loops latest, vars := played.vars }
        ∀ limit, drive table act (n + limit) scene =
          (played.rows ++ (drive table act limit behind).1, (drive table act limit behind).2)
      | .left => False
      | .failed e => ∃ n, ∀ limit, drive table act (n + limit) scene = (played.rows, .failed e) := by
  intro c played
  have hplay : Simulates table act c false c.loops p.tags.length c.ifDepth ⟨0, 0⟩ (.of table act scene) played :=
    p.play_simulated known act hp scene rest h
  cases hexit : played.exit with
  | through =>
    simp only [Simulates, hexit] at hplay
    obtain ⟨loops, latest, hkept, n, hn⟩ := hplay
    exact ⟨n, loops, latest, hkept, hn⟩
  | left =>
    simp only [Simulates, hexit] at hplay
    cases hplay.1
  | failed e =>
    simp only [Simulates, hexit] at hplay
    exact hplay

/--
A script that is a program is driven to its end, or to the fault of the program.
-/
theorem drive_script (known : Bodies table) (act : LeafAction) (p : Program)
    (hp : p.Valid table known.find? false) (file : String) (maxDepth : Nat) (vars : Variables)
    : let played := p.play table known.find? act maxDepth maxDepth none vars
      ∃ n, ∀ limit, drive table act (n + limit) { cursor := { file, tags := p.tags, maxDepth }, vars } =
        (played.rows, match played.exit with | .failed e => .failed e | _ => .finished) := by
  intro played
  have hplay : Simulates table act { file, tags := p.tags, maxDepth } false [] p.tags.length 0 ⟨0, 0⟩
      (.of table act { cursor := { file, tags := p.tags, maxDepth }, vars }) played :=
    p.play_simulated known act hp { cursor := { file, tags := p.tags, maxDepth }, vars } []
      (List.append_nil _).symm
  cases hexit : played.exit with
  | through =>
    simp only [Simulates, hexit] at hplay
    obtain ⟨loops, latest, _, n, hn⟩ := hplay
    have hend : (({ file, tags := p.tags, maxDepth } : Cursor).moved p.tags.length 0 loops latest).unread
        = [] := by
      rw [Cursor.unread_moved]
      exact List.drop_length
    exists n + 1
    intro limit
    unfold Course.of at hn
    rw [Nat.add_assoc, hn, Nat.add_comm 1, drive, Cursor.next_of_end hend rfl]
    simp
  | left =>
    simp only [Simulates, hexit] at hplay
    cases hplay.1
  | failed e =>
    simp only [Simulates, hexit] at hplay
    exact hplay

section Sample

def sampleTable : MacroTable :=
  { entries := [("greet", { name := "greet", tags := [{ name := "wave", values := [], line := 1 }], line := 1 })] }

def sampleBodies : Bodies sampleTable where
  find? name := if name = "greet" then some (.leaf { name := "wave", values := [], line := 1 } .done) else none
  valid name body h := by
    split at h
    . cases h
      exact ⟨⟨by decide, by decide⟩, trivial⟩
    . cases h

def sample : Program :=
  let tag (name : String) (line : Nat) : Tag := { name, values := [], line }
  let loop (rounds line : Nat) : Tag := { name := "for", values := [("loops", .ofNat rounds)], line }
  .loop (loop 2 4) 2
    (.call (tag "greet" 5)
      (.loop (loop 5 6) 5 (.leaf (tag "smile" 7) (.leave (tag "breakfor" 8) .done)) (tag "endfor" 9) .done))
    (tag "endfor" 10) .done

theorem sample_valid : sample.Valid sampleTable sampleBodies.find? false := by
  refine ⟨⟨⟨by decide, by decide⟩, rfl⟩, ?_, ⟨by decide, by decide⟩, trivial⟩
  refine ⟨⟨by decide, _, _, rfl, rfl, rfl⟩, ?_⟩
  refine ⟨⟨⟨by decide, by decide⟩, rfl⟩, ?_, ⟨by decide, by decide⟩, trivial⟩
  exact ⟨⟨by decide, by decide⟩, ⟨rfl, by decide, by decide⟩, trivial⟩

theorem drive_sample
    : let act : LeafAction := fun _ _ => pure ()
      let scene : Scene := { cursor := { file := "", tags := sample.tags, maxDepth := 64 }, vars := {} }
      let played := sample.play sampleTable sampleBodies.find? act 64 64 none {}
      sample.Valid sampleTable sampleBodies.find? false ∧ scene.cursor.unread = sample.tags ++ [] ∧
        played.rows.map (·.tag.name) = ["wave", "smile", "wave", "smile"] ∧
        ∃ n loops latest, Kept 0 [] loops ∧
          let behind := { cursor := scene.cursor.moved 7 0 loops latest, vars := played.vars }
          ∀ limit, drive sampleTable act (n + limit) scene =
            (played.rows ++ (drive sampleTable act limit behind).1, (drive sampleTable act limit behind).2) := by
  intro act scene played
  exact ⟨sample_valid, rfl, rfl, drive_eq_play sampleBodies act sample sample_valid scene [] rfl⟩

end Sample

end Structured
end VisualNovel
