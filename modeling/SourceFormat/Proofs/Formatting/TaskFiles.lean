import Mathlib
import SourceFormat.Proofs.Config.GeneratedFile
import SourceFormat.Proofs.Formatting.TaskTurns
import SourceFormat.Proofs.Subprocess.SessionCancellation

/-!
# The option file of a run

A run settles its option file before it starts the formatter, and lets go of it on each of its ways
out: when it was displaced before the start, when the start fails, and behind the outcome of the
formatter, whatever that is.  Callers and the session act on the task meanwhile, and others on the
files.
-/

namespace SourceFormat

namespace Subprocess.Session

variable {s s' : Session}

/-- The process has been launched, and its end has not been taken note of. -/
def Unreaped (s : Session) : Prop := s.life = .running ∨ s.life = .ended

/-- Only a start makes a process. -/
lemma unreaped_of_step {e : Event} (hstep : s.step e = some s') (h : s'.Unreaped) :
    s.Unreaped := by
  cases happens_of_step hstep with
  | processEnds hl => exact .inl hl
  | noticeEnd | reapCancelled | reapExpired => simp [Unreaped] at h
  | _ => exact h

/-- A process that is left behind by a cancellation was there before. -/
lemma unreaped_of_cancel (h : s.cancel.2.Unreaped) : s.Unreaped := by
  by_cases hs : s.state = .started
  · rw [cancel_of_started hs] at h
    exact h
  · rwa [cancel_of_not_started hs] at h

/-- A start that fails leaves no process behind. -/
lemma not_unreaped_of_start {r : Request} {launch : Except SystemError Unit} {e : RunError}
    (h : ¬ s.Unreaped) (hr : s.start r launch = (.error e, s')) : ¬ s'.Unreaped := by
  cases startResult hr <;> exact h

end Subprocess.Session

namespace Formatting.Task

open Subprocess (Session)

variable {t t' : Task} {env : Surroundings} {files files' : FileTree}

/-! ## The process and the option file -/

/-- The formatter was launched with the option file that the run holds, and its end has been taken
note of when the run lets go of it. -/
structure Attended (t : Task) : Prop where
  launched : ∀ config, t.stage = .guarding config ∨ t.stage = .recalling config ∨
    t.stage = .awaiting config → t.session.Launched (t.process config)
  behind : 8 ≤ t.stage.position → ¬ t.session.Unreaped

/-- A new task holds nothing and has launched nothing. -/
lemma attended_new (request : Request) (settings : Settings) (style : Style) :
    Attended { request, settings, style } where
  launched _ hs := by simp at hs
  behind := by simp [Stage.position]

/-- Beginning a run launches nothing. -/
lemma Attended.begin (h : t.Attended) : t.begin.2.Attended := by
  by_cases hi : t.state = .idle
  · rw [begin_of_idle hi]
    exact ⟨by simp, by simp [Stage.position]⟩
  · rw [begin_of_not_idle hi]
    exact h

/-- A cancellation neither launches a formatter nor lets go of a file. -/
lemma Attended.cancel (h : t.Attended) : t.cancel.2.Attended where
  launched config hs := (h.launched config hs).next (a := .cancel) rfl
  behind hp hu := h.behind hp (Session.unreaped_of_cancel hu)

/-- No step of the session takes its option file from a formatter. -/
lemma Attended.sessionStep (h : t.Attended) {e : Session.Event}
    (hstep : t.sessionStep e = some t') : t'.Attended := by
  obtain ⟨session, hsession, rfl⟩ := sessionStep_eq_some hstep
  exact {
    launched := fun config hs => (h.launched config hs).next (a := .event e) hsession
    behind := fun hp hu => h.behind hp (Session.unreaped_of_step hsession hu) }

/-- The run launches the formatter with the file that it holds, and lets go of the file when the
formatter is gone. -/
lemma Attended.advance (hc : t.Coherent) (h : t.Attended)
    (hadv : t.advance env files = some (t', files')) : t'.Attended := by
  have hfresh : t.stage.position ≤ 4 → ¬ t.session.Unreaped := fun hp => by
    simp [hc.fresh hp, Session.Unreaped]
  cases advances_of_advance hadv with
  | resolved hs | unresolved hs | giveUp hs | goOn hs | enter hs =>
    exact ⟨by simp, fun _ => hfresh (by simp [hs, Stage.position])⟩
  | @started config session hs hr =>
    refine ⟨fun config' hs' => ?_, by simp [Stage.position]⟩
    obtain rfl : config = config' := by simpa using hs'
    rw [hc.fresh (by simp [hs, Stage.position])] at hr
    have hlaunched := Session.launched_start (Prod.ext_iff.mp hr).1
    rwa [hr] at hlaunched
  | unstarted hs hr =>
    exact ⟨by simp, fun _ =>
      Session.not_unreaped_of_start (hfresh (by simp [hs, Stage.position])) hr⟩
  | @seen config hs | @unseen config hs =>
    refine ⟨fun config' hs' => ?_, by simp [Stage.position]⟩
    obtain rfl : config = config' := by simpa using hs'
    exact h.launched config (.inl hs)
  | @recalled config hs =>
    refine ⟨fun config' hs' => ?_, by simp [Stage.position]⟩
    obtain rfl : config = config' := by simpa using hs'
    exact (h.launched config (.inr (.inl hs))).next (a := .cancel) rfl
  | ended hs ho =>
    refine ⟨by simp, fun _ => ?_⟩
    have hreaped := hc.session.reaped_of_outcome (Option.isSome_iff_exists.mpr ⟨_, ho⟩)
    simp [Session.Unreaped, hreaped]
  | close hs | finishHeld hs | finish hs | unwind hs =>
    exact ⟨by simp, fun _ => h.behind (by simp [hs, Stage.position])⟩

/-- No move of anybody takes its option file from a formatter. -/
lemma Attended.moves {marking recalling : Prop} (hc : t.Coherent) (h : t.Attended)
    (hmoves : Moves marking recalling t t') : t'.Attended := by
  cases hmoves with
  | stays => exact h
  | begins => exact h.begin
  | advances hadv => exact h.advance hc hadv
  | marks => exact { h with }
  | cancels => exact h.cancel
  | happens hstep => exact h.sessionStep hstep

/-- A process that has been launched and not reaped runs with the option file that the run holds. -/
lemma Attended.holds (hc : t.Coherent) (h : t.Attended) (hu : t.session.Unreaped) :
    ∃ config, t.config? = some config ∧ t.session.Launched (t.process config) := by
  have hbefore : ¬ t.stage.position ≤ 4 := fun hp => by
    simp [hc.fresh hp, Session.Unreaped] at hu
  have hbehind : ¬ 8 ≤ t.stage.position := fun hp => h.behind hp hu
  cases hs : t.stage with
  | guarding config => exact ⟨config, by simp [config?, hs], h.launched config (.inl hs)⟩
  | recalling config => exact ⟨config, by simp [config?, hs], h.launched config (.inr (.inl hs))⟩
  | awaiting config => exact ⟨config, by simp [config?, hs], h.launched config (.inr (.inr hs))⟩
  | _ => simp [hs, Stage.position] at hbefore hbehind

/-! ## What a step of the run makes of the files -/

/-- What a step of the run makes of the option file that it holds, and of the files. -/
inductive FileMoves (env : Surroundings) (files : FileTree) (t t' : Task) : FileTree → Prop where
  /-- It touches neither. -/
  | stays (h : t'.config? = t.config?) : FileMoves env files t t' files
  /-- It settles the option file. -/
  | settles {files' : FileTree} {config : Config.Resolved} (hs : t.stage = .resolving)
      (hr : Config.resolve files env.temporary t.request.projectRoot t.settings t.style =
        (files', .ok config)) (hs' : t'.stage = .checking config) : FileMoves env files t t' files'
  /-- It finds none and cannot generate one. -/
  | fails {files' : FileTree} {e : Config.GenerateError} (hs : t.stage = .resolving)
      (hr : Config.resolve files env.temporary t.request.projectRoot t.settings t.style =
        (files', .error e)) (h' : t'.config? = none) : FileMoves env files t t' files'
  /-- It lets go of the option file. -/
  | releases {config : Config.Resolved} (h : t.config? = some config) (h' : t'.config? = none) :
      FileMoves env files t t' (Config.release files config)

/-- Every step of the run does one of these to the files. -/
lemma fileMoves (hadv : t.advance env files = some (t', files')) :
    FileMoves env files t t' files' := by
  cases advances_of_advance hadv with
  | resolved hs hr => exact .settles hs hr rfl
  | unresolved hs hr => exact .fails hs hr rfl
  | giveUp hs | goOn hs | enter hs | started hs | unstarted hs | seen hs | unseen hs | recalled hs
  | ended hs | finishHeld hs | finish hs =>
    exact .stays (by simp [config?, hs])
  | close hs | unwind hs => exact .releases (by simp [config?, hs]) rfl

/-- A step of the run leaves every path leading where it led. -/
lemma sameDirectories_of_advance {env : Surroundings}
    (hadv : t.advance env files = some (t', files')) : FileTree.SameDirectories files files' := by
  cases fileMoves hadv with
  | stays => exact .refl files
  | settles _ hr | fails _ hr => exact Config.sameDirectories_of_resolve hr
  | releases => exact Config.sameDirectories_release _ _

/-- A step of the run changes nothing that is there, but for the file that it has generated. -/
lemma node?_of_advance {env : Surroundings} (hadv : t.advance env files = some (t', files'))
    {l : Location} {node : Node} (hn : files.node? l = some node) :
    files'.node? l = some node ∨
      ∃ p warnings, t.config? = some ⟨.generated p, warnings⟩ ∧ files.locate p = .ok l := by
  cases fileMoves hadv with
  | stays => exact .inl hn
  | settles _ hr | fails _ hr => exact .inl (Config.node?_of_resolve hr hn)
  | @releases config hconfig =>
    rcases Config.release_cases files config with hsame | ⟨p, k, found, hlocation, hp, -, hgone⟩
    · exact .inl (by rw [hsame, hn])
    · by_cases hlk : l = k
      · subst hlk
        obtain ⟨location, warnings⟩ := config
        obtain rfl : location = .generated p := hlocation
        exact .inr ⟨p, warnings, hconfig, (FileTree.find_eq_ok_iff.mp hp).1⟩
      · rw [hgone, FileTree.node?_unset_of_ne hlk]
        exact .inl hn

/-- The same of what a path leads to. -/
lemma find_of_advance {env : Surroundings} (hadv : t.advance env files = some (t', files'))
    {q : Path} {l : Location} {node : Node} (hfind : files.find q = .ok (l, node)) :
    files'.find q = .ok (l, node) ∨
      ∃ p warnings, t.config? = some ⟨.generated p, warnings⟩ ∧ files.locate p = .ok l := by
  obtain ⟨hl, hn⟩ := FileTree.find_eq_ok_iff.mp hfind
  exact (node?_of_advance hadv hn).imp_left fun hkept =>
    FileTree.find_eq_ok_iff.mpr
      ⟨(FileTree.locate_eq_ok_iff (sameDirectories_of_advance hadv)).mpr hl, hkept⟩

/-! ## Everything that is done to a task -/

/-- What is done to a task. -/
inductive Act where
  /-- Somebody runs it. -/
  | run
  /-- Its run takes the next step. -/
  | advance (env : Surroundings)
  | markSuperseded
  | cancel
  /-- Its session takes a step. -/
  | session (e : Session.Event)

instance : Inhabited Act := ⟨.run⟩

/-- The task and the files behind an act; none if it is not possible now. -/
def act (t : Task) (files : FileTree) : Act → Option (Task × FileTree)
  | .run => some (t.begin.2, files)
  | .advance env => t.advance env files
  | .markSuperseded => some (t.markSuperseded, files)
  | .cancel => some (t.cancel.2, files)
  | .session e => (t.sessionStep e).map (·, files)

/-- The option file of a run depends on how far the run has come. -/
lemma config?_eq_of_stage (h : t'.stage = t.stage) : t'.config? = t.config? := by
  simp [config?, h]

/-- An act is a step of the run, or it leaves the files alone, the option file that the run holds,
and the stage of every task that has been run before. -/
lemma act_cases (hc : t.Coherent) {a : Act} (h : t.act files a = some (t', files')) :
    (∃ env, a = .advance env ∧ t.advance env files = some (t', files')) ∨
      (files' = files ∧ t.Moves True True t' ∧ t'.config? = t.config? ∧
        (t.stage = .unrun ∨ t'.stage = t.stage)) := by
  have hsame : t'.stage = t.stage → t'.config? = t.config? ∧
      (t.stage = .unrun ∨ t'.stage = t.stage) := fun hs => ⟨config?_eq_of_stage hs, .inr hs⟩
  cases a with
  | run =>
    cases h
    refine .inr ⟨rfl, .begins, ?_⟩
    by_cases hi : t.state = .idle
    · have hunrun := hc.idle.mp hi
      exact ⟨by simp [begin_of_idle hi, config?, hunrun], .inl hunrun⟩
    · exact hsame (by rw [begin_of_not_idle hi])
  | advance env => exact .inl ⟨env, rfl, h⟩
  | markSuperseded =>
    cases h
    exact .inr ⟨rfl, .marks trivial, hsame rfl⟩
  | cancel =>
    cases h
    exact .inr ⟨rfl, .cancels trivial, hsame rfl⟩
  | session e =>
    obtain ⟨t'', hstep, heq⟩ := Option.map_eq_some_iff.mp h
    cases heq
    refine .inr ⟨rfl, .happens hstep, hsame ?_⟩
    obtain ⟨session, -, rfl⟩ := sessionStep_eq_some hstep
    rfl

/-- Every act on a task is one of its moves. -/
lemma moves_of_act (hc : t.Coherent) {a : Act} (h : t.act files a = some (t', files')) :
    t.Moves True True t' := by
  rcases act_cases hc h with ⟨env, -, hadv⟩ | ⟨-, hmoves, -⟩
  · exact .advances hadv
  · exact hmoves

/-! ## The files of others -/

/-- The option file that the run has generated, if it holds one, is not at this location: its path
does not lead there in any tree, as long as relative paths start in `home`. -/
def ClearOf (t : Task) (home l : Location) : Prop :=
  ∀ p warnings, t.config? = some ⟨.generated p, warnings⟩ →
    ∀ tree : FileTree, tree.workingDirectory = home → tree.locate p ≠ .ok l

/-- An option file is generated where nothing was, and so not where something is. -/
lemma ClearOf.advance {env : Surroundings} {l : Location} {node : Node}
    (h : t.ClearOf files.workingDirectory l) (hnode : files.node? l = some node)
    (hadv : t.advance env files = some (t', files')) : t'.ClearOf files.workingDirectory l := by
  cases fileMoves hadv with
  | stays hsame =>
    intro p warnings hconfig
    exact h p warnings (hsame ▸ hconfig)
  | settles _ hr hs' =>
    intro p warnings hconfig tree hhome hl
    simp only [config?, hs', Option.some.injEq] at hconfig
    subst hconfig
    obtain ⟨k, hk, hvacant⟩ := Config.vacant_of_resolve_generated hr
    obtain rfl := FileTree.locate_unique hhome hk hl
    rw [hnode] at hvacant
    cases hvacant
  | fails _ _ hnone | releases _ hnone =>
    intro p warnings hconfig
    rw [hnone] at hconfig
    cases hconfig

/-- What somebody does to a task leaves the files of others as they are. -/
lemma ClearOf.act (hc : t.Coherent) {l : Location} {node : Node}
    (h : t.ClearOf files.workingDirectory l) (hn : files.node? l = some node) {a : Act}
    (hact : t.act files a = some (t', files')) :
    t'.ClearOf files.workingDirectory l ∧ files'.node? l = some node ∧
      files'.workingDirectory = files.workingDirectory := by
  rcases act_cases hc hact with ⟨env, -, hadv⟩ | ⟨rfl, -, hconfig, -⟩
  · refine ⟨h.advance hn hadv, ?_, (sameDirectories_of_advance hadv).workingDirectory⟩
    rcases node?_of_advance hadv hn with hkept | ⟨p, warnings, hheld, hl⟩
    · exact hkept
    · exact absurd hl (h p warnings hheld files rfl)
  · exact ⟨fun p warnings hheld => h p warnings (hconfig ▸ hheld), hn, rfl⟩

end Formatting.Task

end SourceFormat
