import Mathlib
import ServiceMap.Command.Run
import ServiceMap.Proofs.Registry
import ServiceMap.Proofs.Writers

/-! What a check leaves behind, however it ends. All that can be wrong with the configuration is found
before anything is written; but the report is written before the diagram, and it stays when the diagram
cannot be written. -/

namespace ServiceMap

namespace Writing

@[simp] theorem text_put (kind : IoFault → Error) (t : String) : (put kind t).text = .ok t := by
  have back : String.fromUTF8? t.toByteArray = some t := by
    simp only [String.fromUTF8?, String.isValidUTF8]
    rfl
  simp [text, run_put, Sink.write, Sink.endless, back]

end Writing

theorem Report.text_ne (r : Report) : ∃ text, r.write.text = .ok text ∧ text ≠ "" := by
  obtain ⟨text, one⟩ := r.puts_write
  rw [if_pos rfl] at one
  refine ⟨text, by rw [one, Writing.text_put], fun none => ?_⟩
  -- without room not even the title can be written
  have stuck : (r.write.run (.ofRoom 0)).1 = .error (.io .full) := by
    rw [write, run_bind, writeSummary, run_bind, Writing.line, Writing.run_put]
    rfl
  rw [one, none, Writing.put_empty] at stuck
  cases stuck

namespace Command

/-- The action ends so in a world, and what it leaves is the other world, but for the logs. No action
asks the log. -/
def Leaves {α : Type} (x : Action α) (w : World) (r : Except Error α) (after : World) : Prop :=
  ∀ log, ∃ log', x.run { w with log } = (r, { after with log := log' })

namespace Leaves

variable {α β : Type} {x : Action α} {f : α → Action β} {w mid after : World}

theorem pure (a : α) : Leaves (Pure.pure a) w (.ok a) w := fun log => ⟨log, rfl⟩

theorem record (events : List Event) : Leaves (Command.record events) w (.ok ()) w :=
  fun _ => ⟨_, rfl⟩

theorem bind {a : α} {r : Except Error β} (first : Leaves x w (.ok a) mid)
    (second : Leaves (f a) mid r after) : Leaves (x >>= f) w r after := by
  intro log
  obtain ⟨log₁, h₁⟩ := first log
  obtain ⟨log₂, h₂⟩ := second log₁
  exact ⟨log₂, by rw [run_bind, h₁, ← h₂]⟩

theorem bind_error {e : Error} (first : Leaves x w (.error e) after) :
    Leaves (x >>= f) w (.error e) after := by
  intro log
  obtain ⟨log', h⟩ := first log
  exact ⟨log', by rw [run_bind, h]⟩

theorem get_bind {g : World → Action β} {r : Except Error β}
    (h : ∀ log, Leaves (g { w with log }) w r after) : Leaves (get >>= g) w r after := by
  intro log
  obtain ⟨log', h'⟩ := h log log
  exact ⟨log', by rw [run_bind, ← h']; rfl⟩

/-- What is worked out without the world leaves it alone. -/
theorem lift {e r : Except Error α} (worked : e = r) : Leaves (liftM e) w r w := by
  subst worked
  cases e <;> exact fun log => ⟨log, rfl⟩

theorem lift_bind {e : Except Error α} {g : α → Except Error β}
    (h : ∀ a, Leaves (f a) w (g a) w) : Leaves (liftM e >>= f) w (e >>= g) w := by
  cases e with
  | error e => exact bind_error (lift rfl)
  | ok a => exact bind (lift rfl) (h a)

end Leaves

namespace Project

/-- The services and their files, as they are found in a tree. -/
def find (tree : FileTree) (dir : Path) (config : Option Path) : Except Error Project := do
  let settings ← Settings.load tree dir config
  let registry ← Registry.ofSettings settings
  return ⟨settings, registry, ← registry.sources tree⟩

def findSubtree (tree : FileTree) (dir : Path) (path : Option Path) : Except Error (Option Path) :=
  match path with
  | none => .ok none
  | some p => ((tree.canonical (dir.join p)).mapError (.inaccessible p)).map some

variable {w : World}

theorem load_leaves (config : Option Path) :
    Leaves (load config) w (find w.tree w.workingDir config) w := by
  refine .get_bind fun log => .lift_bind fun settings => .bind (.record _) ?_
  refine .lift_bind fun registry => .bind (.record _) ?_
  exact .lift_bind fun sources => .pure _

theorem subtree_leaves (path : Option Path) :
    Leaves (subtree path) w (findSubtree w.tree w.workingDir path) w := by
  refine .get_bind fun log => ?_
  cases path with
  | none => exact .pure _
  | some p =>
    simp only [findSubtree]
    cases w.tree.canonical (w.workingDir.join p) with
    | ok place => exact .pure _
    | error e => exact fun log => ⟨log, rfl⟩

theorem scan_leaves (p : Project) (subtree : Option Path) :
    Leaves (p.scan subtree) w (.ok (p.registry.scan w.tree p.sources subtree)) w :=
  .get_bind fun _ => .bind (.record _) (.pure _)

theorem report_leaves (p : Project) (checks : Checks) (scans : List Scan) :
    Leaves (p.report checks scans) w
      (.ok (p.registry.report w.tree checks scans (.ofScans p.registry scans))) w :=
  .get_bind fun _ => .bind (.record _) (.bind (.record _) (.pure _))

end Project

/-- A text that has been written to a file, or to standard output when none is named. -/
def delivered (text : String) (file : Option Path) (w : World) : Except IoFault World :=
  match file with
  | none => .ok { w with output := w.output ++ text }
  | some file =>
    match w.tree.write (w.workingDir.join file) text.toUTF8 with
    | .ok tree => .ok { w with tree }
    | .error e => .error e

theorem emit_leaves (text : String) (file : Option Path) (w : World) :
    match delivered text file w with
    | .ok after => Leaves (emit text file) w (.ok ()) after
    | .error e => Leaves (emit text file) w (.error (.io e)) w := by
  cases file with
  | none => exact .get_bind fun _ => fun _ => ⟨_, rfl⟩
  | some file =>
    cases written : w.tree.write (w.workingDir.join file) text.toUTF8 with
    | ok tree =>
      simp only [delivered, written]
      refine .get_bind fun _ => ?_
      simp only [written]
      exact fun _ => ⟨_, rfl⟩
    | error e =>
      simp only [delivered, written]
      refine .get_bind fun _ => ?_
      simp only [written]
      exact fun _ => ⟨_, rfl⟩

namespace CheckArguments

variable {a : CheckArguments} {w : World}

/-- All that a check works out before it writes anything: the services, and the report on them. -/
def findings (a : CheckArguments) (tree : FileTree) (dir : Path) : Except Error (Project × Report) := do
  let project ← Project.find tree dir a.config
  let subtree ← Project.findSubtree tree dir a.subtree
  let scans := project.registry.scan tree project.sources subtree
  return (project, project.registry.report tree (a.checksOr project.settings.checks) scans
    (.ofScans project.registry scans))

/-- A diagram shows no path, so there is a text for it. -/
theorem drawn_ok (a : CheckArguments) (edges : List Edge) (r : Registry) :
    ∃ drawing, a.drawn edges r = .ok drawing := by
  unfold drawn
  split
  · exact ⟨_, by rw [Mermaid.write_eq, Writing.text_put]⟩
  · exact ⟨_, by rw [Dot.write_eq, Writing.text_put]⟩

/-- What is left to do once the report is there. -/
def publish (a : CheckArguments) (p : Project) (r : Report) : Action Bool := do
  emit (← a.rendered r) a.output
  if a.wantsDiagram then
    emit (← a.drawn r.graph.edges p.registry) a.diagramOutput
  record [finished]
  return r.valid

theorem run_eq (a : CheckArguments) : a.run = (do
    let project ← Project.load a.config
    let subtree ← Project.subtree a.subtree
    let scans ← project.scan subtree
    let report ← project.report (a.checksOr project.settings.checks) scans
    a.publish project report) := rfl

/-- A check that finds out nothing leaves the world as it was, and else goes on to publish. -/
theorem run_leaves (a : CheckArguments) (w : World) :
    match a.findings w.tree w.workingDir with
    | .error e => Leaves a.run w (.error e) w
    | .ok (p, report) => ∀ r after, Leaves (a.publish p report) w r after → Leaves a.run w r after := by
  rw [run_eq]
  have loaded := Project.load_leaves (w := w) a.config
  cases hp : Project.find w.tree w.workingDir a.config with
  | error e =>
    rw [hp] at loaded
    simp only [findings, hp]
    exact .bind_error loaded
  | ok project =>
    rw [hp] at loaded
    have below := Project.subtree_leaves (w := w) a.subtree
    cases hs : Project.findSubtree w.tree w.workingDir a.subtree with
    | error e =>
      rw [hs] at below
      simp only [findings, hp, hs]
      exact .bind loaded (.bind_error below)
    | ok subtree =>
      rw [hs] at below
      simp only [findings, hp, hs]
      intro r after rest
      exact .bind loaded (.bind below (.bind (project.scan_leaves _) (.bind (project.report_leaves _ _) rest)))

/-- The report can be written, which leaves `mid`, but the file that is named for the diagram cannot. -/
def Undrawn (a : CheckArguments) (w mid : World) (e : IoFault) : Prop :=
  ∃ file p report text drawing, a.diagramOutput = some file ∧
    a.findings w.tree w.workingDir = .ok (p, report) ∧
    a.rendered report = .ok text ∧ delivered text a.output w = .ok mid ∧
    a.drawn report.graph.edges p.registry = .ok drawing ∧
    mid.tree.write (mid.workingDir.join file) drawing.toUTF8 = .error e

theorem Undrawn.leaves {w mid : World} {e : IoFault} (h : a.Undrawn w mid e) :
    Leaves a.run w (.error (.io e)) mid := by
  obtain ⟨file, p, report, text, drawing, named, found, rendered, reported, drawn, refused⟩ := h
  have ran := a.run_leaves w
  have first := emit_leaves text a.output w
  have second := emit_leaves drawing a.diagramOutput mid
  have wanted : a.wantsDiagram = true := by simp [wantsDiagram, named]
  rw [found] at ran
  rw [reported] at first
  simp only [named, delivered, refused] at second
  refine ran _ _ (.bind (.lift rendered) (.bind first ?_))
  rw [if_pos wanted, named]
  exact .bind (.lift drawn) (.bind_error second)

/-- A check is carried out, or leaves the world as it was, or its diagram cannot be written. -/
theorem run_cases (a : CheckArguments) (w : World) :
    (∃ valid after, Leaves a.run w (.ok valid) after) ∨ (∃ e, Leaves a.run w (.error e) w) ∨
      ∃ e mid, a.Undrawn w mid e := by
  have ran := a.run_leaves w
  cases found : a.findings w.tree w.workingDir with
  | error e =>
    rw [found] at ran
    exact .inr (.inl ⟨e, ran⟩)
  | ok both =>
    obtain ⟨p, report⟩ := both
    rw [found] at ran
    cases rendered : a.rendered report with
    | error e => exact .inr (.inl ⟨e, ran _ _ (.bind_error (.lift rendered))⟩)
    | ok text =>
      have first := emit_leaves text a.output w
      cases reported : delivered text a.output w with
      | error e =>
        rw [reported] at first
        exact .inr (.inl ⟨.io e, ran _ _ (.bind (.lift rendered) (.bind_error first))⟩)
      | ok mid =>
        rw [reported] at first
        cases wanted : a.wantsDiagram with
        | false =>
          refine .inl ⟨report.valid, mid, ran _ _ (.bind (.lift rendered) (.bind first ?_))⟩
          rw [wanted]
          exact .bind (.record _) (.pure _)
        | true =>
          obtain ⟨drawing, drawn⟩ := a.drawn_ok report.graph.edges p.registry
          have second := emit_leaves drawing a.diagramOutput mid
          cases sent : delivered drawing a.diagramOutput mid with
          | ok after =>
            rw [sent] at second
            refine .inl ⟨report.valid, after, ran _ _ (.bind (.lift rendered) (.bind first ?_))⟩
            rw [if_pos wanted]
            exact .bind (.lift drawn) (.bind second (.bind (.record _) (.pure _)))
          | error e =>
            -- standard output takes everything, so the diagram was to go to a file
            cases named : a.diagramOutput with
            | none => simp [named, delivered] at sent
            | some file =>
              refine .inr (.inr ⟨e, mid, file, p, report, text, drawing, named, found, rendered,
                reported, drawn, ?_⟩)
              simp only [named, delivered] at sent
              split at sent
              · cases sent
              · next refused =>
                cases sent
                exact refused

end CheckArguments

namespace Invocation

def endingOf : Except Error Bool → Ending
  | .ok valid => if valid then .passed else .violations
  | .error e => .failed e

theorem check_run {a : CheckArguments} {w after : World} {r : Except Error Bool}
    (h : Leaves a.run w r after) :
    ((check a).run w).1 = endingOf r ∧ ((check a).run w).2.tree = after.tree ∧
      ((check a).run w).2.output = after.output := by
  obtain ⟨log, ran⟩ := h w.log
  have ran : a.run.run w = (r, { after with log }) := ran
  unfold run action
  rw [run_bind, ran]
  cases r with
  | ok valid => exact ⟨rfl, rfl, rfl⟩
  | error e => exact ⟨rfl, rfl, rfl⟩

/-- When a check could not be carried out, the files and standard output are as before; only where a
file is named for the diagram and cannot be written, the report has gone out already. That is so long as
standard output refuses nothing and no file is left half written, as `World` has it. -/
theorem unfinished_check (args : List String) (w : World) :
    let i := ofArguments ("check" :: args)
    let ending := (i.run w).1
    let after := (i.run w).2
    (ending.exitCode = 2 →
      (after.tree = w.tree ∧ after.output = w.output) ∨
        ∃ a mid e, i = check a ∧ a.Undrawn w mid e) ∧
      ∀ a mid e, i = check a → a.Undrawn w mid e →
        ending = .failed (.io e) ∧ after.tree = mid.tree ∧ after.output = mid.output := by
  intro i ending after
  refine ⟨fun two => ?_, fun a mid e parsed undrawn => ?_⟩
  · have parsed : (∃ a, i = check a) ∨ i = help ∨ i = misuse := by
      show (∃ a, ofReading _ _ = check a) ∨ ofReading _ _ = help ∨ ofReading _ _ = misuse
      cases CheckArguments.grammar.read [] args with
      | given options => exact .inl ⟨_, rfl⟩
      | help => exact .inr (.inl rfl)
      | misuse => exact .inr (.inr rfl)
    rcases parsed with ⟨a, parsed⟩ | parsed | parsed
    · rcases a.run_cases w with ⟨valid, done, leaves⟩ | ⟨e, leaves⟩ | ⟨e, mid, undrawn⟩
      · have ended : ending = endingOf (.ok valid) := by
          simp only [ending, parsed, (check_run leaves).1]
        rw [ended] at two
        cases valid <;> cases two
      · obtain ⟨-, tree, output⟩ := check_run leaves
        exact .inl (by simp only [after, parsed, tree, output, and_self])
      · exact .inr ⟨a, mid, e, parsed, undrawn⟩
    · have ended : ending.exitCode = 0 := by
        simp only [ending, parsed]
        rfl
      rw [ended] at two
      cases two
    · refine .inl ?_
      simp only [after, parsed]
      exact ⟨rfl, rfl⟩
  · have run := check_run undrawn.leaves
    simp only [ending, after, parsed]
    exact run

/-- A configuration without services, in the root directory. -/
def bareWorld : World := ⟨⟨.dir [("c", .file ⟨#[]⟩)]⟩, ⟨"/"⟩, "", []⟩

/-- The diagram is to go into a directory that is not there. -/
def strayArguments : List String := ["--config", "c", "--diagram-output", "g/h"]

def strayDiagram : CheckArguments :=
  ⟨some ⟨"c"⟩, none, .none, .text, none, false, .mermaid, some ⟨"g/h"⟩⟩

theorem strayDiagram_parsed : ofArguments ("check" :: strayArguments) = check strayDiagram := by
  have config : Grammar.longOption? "--config" = some ("config", none) := by
    simp [Grammar.longOption?]
  have diagram : Grammar.longOption? "--diagram-output" = some ("diagram-output", none) := by
    simp [Grammar.longOption?]
  have read : CheckArguments.grammar.read [] strayArguments =
      .given [("config", "c"), ("diagram-output", "g/h")] := by
    simp [strayArguments, Grammar.read, config, diagram, CheckArguments.grammar, List.lookup,
      Grammar.isOption, Grammar.add?, takesPath]
  simp [ofArguments, read, ofReading, CheckArguments.ofGiven, strayDiagram, Given.path?, Given.has,
    Given.format, Checks.none, List.lookup]

theorem bareWorld_load :
    ∃ settings, Settings.load bareWorld.tree ⟨"/"⟩ (some ⟨"c"⟩) = .ok settings ∧ settings.services = [] := by
  have place : (⟨"/"⟩ : Path).join ⟨"c"⟩ = ⟨"/c"⟩ := by simp [Path.join, Path.isAbsolute]
  have text : bareWorld.tree.readText ⟨"/c"⟩ = .ok "" := by cbv
  have file : Config.File.ofText "" = .ok {} := by cbv
  simp [Settings.load, place, text, file, Except.mapError, bind, Except.bind, pure, Except.pure,
    Settings.ofFile]

theorem strayDiagram_undrawn :
    ∃ mid, strayDiagram.Undrawn bareWorld mid .notFound ∧ mid.output ≠ "" := by
  obtain ⟨settings, loaded, none⟩ := bareWorld_load
  have found : Project.find bareWorld.tree ⟨"/"⟩ (some ⟨"c"⟩) =
      .ok ⟨settings, ⟨settings.projectRoot, []⟩, []⟩ := by
    simp [Project.find, loaded, Registry.ofSettings, none, Registry.register, Registry.dangling?,
      Registry.sources, Sources.ofRegistry, Sources.files, bind, Except.bind, pure, Except.pure]
  have place : (⟨"/"⟩ : Path).join ⟨"g/h"⟩ = ⟨"/g/h"⟩ := by simp [Path.join, Path.isAbsolute]
  have astray : bareWorld.tree.follow true FileTree.linkLimit [] (FileTree.pieces "/g/h") =
      .error .notFound := by cbv
  have refused : ∀ bytes, bareWorld.tree.write ((⟨"/"⟩ : Path).join ⟨"g/h"⟩) bytes = .error .notFound := by
    simp [place, FileTree.write, astray]
  obtain ⟨p, report, worked⟩ : ∃ p report,
      strayDiagram.findings bareWorld.tree bareWorld.workingDir = .ok (p, report) := by
    have config : Project.find bareWorld.tree bareWorld.workingDir strayDiagram.config = _ := found
    rw [CheckArguments.findings, config]
    exact ⟨_, _, rfl⟩
  obtain ⟨text, rendered, some⟩ := report.text_ne
  obtain ⟨drawing, drawn⟩ := strayDiagram.drawn_ok report.graph.edges p.registry
  refine ⟨{ bareWorld with output := text },
    ⟨⟨"g/h"⟩, p, report, text, drawing, rfl, worked, rendered, ?_, drawn, refused _⟩, some⟩
  simp [strayDiagram, delivered, bareWorld]

theorem unfinished_check_stray :
    ∃ mid, strayDiagram.Undrawn bareWorld mid .notFound ∧ mid.output ≠ "" ∧
      ((ofArguments ("check" :: strayArguments)).run bareWorld).1 = .failed (.io .notFound) ∧
      ((ofArguments ("check" :: strayArguments)).run bareWorld).2.tree = mid.tree ∧
      ((ofArguments ("check" :: strayArguments)).run bareWorld).2.output = mid.output := by
  obtain ⟨mid, undrawn, written⟩ := strayDiagram_undrawn
  obtain ⟨-, after⟩ := unfinished_check strayArguments bareWorld
  exact ⟨mid, undrawn, written, after strayDiagram mid .notFound strayDiagram_parsed undrawn⟩

/-- The check fails, and its report is on standard output. -/
theorem report_before_failure :
    ((ofArguments ("check" :: strayArguments)).run bareWorld).1.exitCode = 2 ∧
      ((ofArguments ("check" :: strayArguments)).run bareWorld).2.output ≠ "" := by
  obtain ⟨mid, undrawn, written⟩ := strayDiagram_undrawn
  obtain ⟨ending, -, output⟩ := check_run undrawn.leaves
  rw [strayDiagram_parsed, ending, output]
  exact ⟨rfl, written⟩

end Invocation
end Command
end ServiceMap
