import Mathlib
import SourceFormat.Proofs.Formatting.TaskFiles

/-!
# How long a generated option file is there

A run that finds no option file generates one.  The formatter reads it at its own pace, and it may
still be doing so when it has been killed and is not gone yet; so the file has to stay until the end
of the process has been taken note of.  On the other hand there are many ways out of a run, and on
each of them the file has to go.

`generated_file_kept`: both hold in every order of steps, whatever callers, the session and the
system do, as long as nobody else touches the file.  A file that cannot be written to its end is
removed at once, and no other file is changed by a run.
-/

namespace SourceFormat.Formatting.Task

open Subprocess (Session)

/-- One order of everything that is done to a new task and to the files around it. -/
abbrev FileRun (request : Request) (settings : Settings) (style : Style) (files : FileTree) :=
  Execution (OnFiles.next act) ⟨{ request, settings, style }, files⟩

variable {request : Request} {settings : Settings} {style : Style} {files files' : FileTree}

/-- Step `m` generates the option file of the run at this path. -/
def FileRun.GeneratesAt (x : FileRun request settings style files) (p : Path) (m : ℕ) : Prop :=
  m < x.length ∧ (x.state m).machine.stage = .resolving ∧
    ∃ warnings, (x.state (m + 1)).machine.stage = .checking ⟨.generated p, warnings⟩

/-- From time `m` on nobody but the task touches what is at this path. -/
def FileRun.Undisturbed (x : FileRun request settings style files) (p : Path) (m : ℕ) : Prop :=
  ∀ j after, m ≤ j → j < x.length → x.label j = .others after →
    ∀ found, after.find p = .ok found ↔ (x.state j).files.find p = .ok found

variable {t t' : Task} {s s' : OnFiles Task}

/-! ## The task of a run -/

/-- What is known of the task of a run at any time. -/
structure Sound (request : Request) (settings : Settings) (style : Style) (t : Task) : Prop where
  coherent : t.Coherent
  attended : t.Attended
  request_eq : t.request = request
  settings_eq : t.settings = settings
  style_eq : t.style = style

/-- What is known of a task stays true, whoever acts. -/
lemma Sound.next (h : Sound request settings style s.machine) {a : OnFiles.Turn Act}
    (hnext : OnFiles.next act s a = some s') : Sound request settings style s'.machine := by
  rcases OnFiles.next_cases hnext with ⟨b, -, hact⟩ | ⟨after, -, hsame, -⟩
  · have hmoves := moves_of_act h.coherent hact
    obtain ⟨hsettings, hstyle⟩ := preferences_moves hmoves
    exact {
      coherent := h.coherent.moves hmoves
      attended := h.attended.moves h.coherent hmoves
      request_eq := (request_moves hmoves).trans h.request_eq
      settings_eq := hsettings.trans h.settings_eq
      style_eq := hstyle.trans h.style_eq }
  · rwa [hsame]

/-- It is known of the task at every time of a run. -/
lemma sound_state (x : FileRun request settings style files) {n : ℕ} (hn : n ≤ x.length) :
    Sound request settings style (x.state n).machine :=
  x.invariant (P := fun s => Sound request settings style s.machine)
    ⟨coherent_new request settings style, attended_new request settings style, rfl, rfl, rfl⟩
    (fun _ _ _ h hnext => h.next hnext) hn

/-! ## A generated file -/

/-- What is known of a run behind the step that has generated its option file. -/
structure Keeps (s : OnFiles Task) (p : Path) (contents : Bytes) : Prop where
  behind : 2 ≤ s.machine.stage.position
  /-- The run holds that file and no other, and the file is as it was written. -/
  held : ∀ config, s.machine.config? = some config →
    config.location = .generated p ∧ ∃ l, s.files.find p = .ok (l, .file contents false)
  gone : s.machine.config? = none → s.files.existsAt p = false

/-- Whether there is something at a path depends on what the path finds. -/
lemma existsAt_congr {p : Path}
    (h : ∀ found, files'.find p = .ok found ↔ files.find p = .ok found) :
    files'.existsAt p = files.existsAt p := by
  rw [Bool.eq_iff_iff, FileTree.existsAt_eq_true_iff, FileTree.existsAt_eq_true_iff]
  simp only [h]

/-- Whoever else acts on the files leaves what is known as it is, if they leave the file alone. -/
lemma Keeps.others {p : Path} {contents : Bytes} {after : FileTree} (h : Keeps s p contents)
    (hsame : ∀ found, after.find p = .ok found ↔ s.files.find p = .ok found) :
    Keeps ⟨s.machine, after⟩ p contents where
  behind := h.behind
  held config hconfig := by
    obtain ⟨hlocation, l, hfind⟩ := h.held config hconfig
    exact ⟨hlocation, l, (hsame _).mpr hfind⟩
  gone hnone := (existsAt_congr hsame).trans (h.gone hnone)

/-- The run keeps the file as long as it holds it, and removes it when it lets go. -/
lemma Keeps.advance {p : Path} {contents : Bytes} {env : Surroundings} (h : Keeps s p contents)
    (hadv : s.machine.advance env s.files = some (t', files')) :
    Keeps ⟨t', files'⟩ p contents := by
  have hbehind : 2 ≤ t'.stage.position := h.behind.trans (position_lt_of_advance hadv).le
  have hresolving : s.machine.stage ≠ .resolving := fun hs => by
    have := h.behind
    simp [hs, Stage.position] at this
  cases fileMoves hadv with
  | stays hsame =>
    exact ⟨hbehind, fun config hconfig => h.held config (hsame ▸ hconfig),
      fun hnone => h.gone (hsame ▸ hnone)⟩
  | settles hs | fails hs => exact absurd hs hresolving
  | @releases config hconfig hnone =>
    obtain ⟨hlocation, l, hfind⟩ := h.held config hconfig
    obtain ⟨hl, hn⟩ := FileTree.find_eq_ok_iff.mp hfind
    obtain ⟨location, warnings⟩ := config
    obtain rfl : location = .generated p := hlocation
    refine ⟨hbehind, fun config' hconfig' => ?_, fun _ => ?_⟩
    · rw [hnone] at hconfig'
      cases hconfig'
    · rw [Config.release_generated hfind (by simp)]
      exact FileTree.existsAt_unset hl (by simp [hn])

/-- As long as others leave its path alone, a generated file is kept as long as it is needed. -/
lemma Keeps.next {p : Path} {contents : Bytes} (hc : s.machine.Coherent) (h : Keeps s p contents)
    {a : OnFiles.Turn Act} (hnext : OnFiles.next act s a = some s')
    (hothers : ∀ after, a = .others after →
      ∀ found, after.find p = .ok found ↔ s.files.find p = .ok found) : Keeps s' p contents := by
  obtain ⟨t', files'⟩ := s'
  rcases OnFiles.next_cases hnext with ⟨b, rfl, hact⟩ | ⟨after, rfl, rfl, rfl⟩
  · rcases act_cases hc hact with ⟨env, -, hadv⟩ | ⟨rfl, -, hconfig, hunrun | hstage⟩
    · exact h.advance hadv
    · have := h.behind
      simp [hunrun, Stage.position] at this
    · exact ⟨hstage ▸ h.behind, fun config hheld => h.held config (hconfig ▸ hheld),
        fun hnone => h.gone (hconfig ▸ hnone)⟩
  · exact h.others (hothers _ rfl)

/-- A file that was just generated is there as it was written. -/
lemma keeps_of_generated {env : Surroundings} {p : Path} {warnings : List Style.LossyConversion}
    (hs : t.stage = .resolving) (hadv : t.advance env files = some (t', files'))
    (hs' : t'.stage = .checking ⟨.generated p, warnings⟩) :
    Keeps ⟨t', files'⟩ p (Utf8.encode t.style.exported.file.render) := by
  have hconfig : t'.config? = some ⟨.generated p, warnings⟩ := by simp [config?, hs']
  cases fileMoves hadv with
  | stays hkept => simp [config?, hs, hs'] at hkept
  | settles _ hr hs'' =>
    cases hs'.symm.trans hs''
    refine ⟨by simp [hs', Stage.position], fun config hheld => ?_, fun hnone => ?_⟩
    · obtain rfl := Option.some.inj (hconfig.symm.trans hheld)
      exact ⟨rfl, Config.find_of_resolve_generated hr⟩
    · rw [hconfig] at hnone
      cases hnone
  | fails _ _ hnone =>
    rw [hconfig] at hnone
    cases hnone
  | releases hheld => simp [config?, hs] at hheld

/-- The step that generates a file leaves the rendered text in it. -/
lemma FileRun.GeneratesAt.keeps {x : FileRun request settings style files} {p : Path} {m : ℕ}
    (h : x.GeneratesAt p m) :
    Keeps (x.state (m + 1)) p (Utf8.encode style.exported.file.render) := by
  obtain ⟨hm, hs, warnings, hs'⟩ := h
  have hsound := sound_state x hm.le
  rcases OnFiles.next_cases (x.next_state m hm) with ⟨b, -, hact⟩ | ⟨after, -, hsame, -⟩
  · rcases act_cases hsound.coherent hact with ⟨env, -, hadv⟩ | ⟨-, -, -, hunrun | hstage⟩
    · have hkeeps := keeps_of_generated hs hadv hs'
      rwa [hsound.style_eq] at hkeeps
    · cases hs.symm.trans hunrun
    · cases (hs'.symm.trans hstage).trans hs
  · rw [hsame, hs] at hs'
    cases hs'

/-- The process of a run is given the option file that the run holds. -/
lemma args_process (t : Task) (config : Config.Resolved) :
    (t.process config).args = [Utf8.encode "-c", config.location.path.bytes,
      Utf8.encode "--assume", t.request.fileName.bytes] := rfl

/-- **A generated option file is kept for the formatter and then removed.** In every order of the
steps of a run, its callers, its session and everybody else, who leave the file alone: as long as
there is a process whose end has not been taken note of, that process was started with the file
behind `-c`, and the file holds the text of the exported style; when the run has returned, in
whatever way, the file is gone.  A file that cannot be generated leaves nothing behind.  And no act
on a task changes anything that is there, but for the file that its run has generated. -/
theorem generated_file_kept (x : FileRun request settings style files) :
    (∀ p m, x.GeneratesAt p m → x.Undisturbed p m →
      (∀ n, m < n → n ≤ x.length → (x.state n).machine.session.Unreaped →
        (∃ r, (x.state n).machine.session.request = some r ∧
          r.args = [Utf8.encode "-c", p.bytes, Utf8.encode "--assume", request.fileName.bytes]) ∧
        (x.state n).files.contents p = .ok (Utf8.encode style.exported.file.render)) ∧
      (∀ n o, m < n → n ≤ x.length → (x.state n).machine.outcome? = some o →
        (x.state n).files.existsAt p = false)) ∧
    (∀ tree tree' temporary e,
      Config.resolve tree temporary request.projectRoot settings style = (tree', .error e) →
        tree' = tree) ∧
    (∀ n q l node, n < x.length → (∀ after, x.label n ≠ .others after) →
      (x.state n).files.find q = .ok (l, node) →
        (x.state (n + 1)).files.find q = .ok (l, node) ∨
          ∃ p warnings, (x.state n).machine.config? = some ⟨.generated p, warnings⟩ ∧
            (x.state n).files.locate p = .ok l) := by
  refine ⟨fun p m hgenerates hundisturbed => ?_, fun _ _ _ _ h => Config.eq_of_resolve_error h, ?_⟩
  · have hkeeps : ∀ n, m < n → n ≤ x.length →
        Keeps (x.state n) p (Utf8.encode style.exported.file.render) := by
      intro n hmn hn
      induction n, hmn using Nat.le_induction with
      | base => exact hgenerates.keeps
      | succ n hmn ih =>
        have hmn' : m ≤ n := by omega
        exact (ih (by omega)).next (sound_state x (by omega)).coherent
          (x.next_state n (by omega)) (fun after hlabel => hundisturbed n after hmn' (by omega) hlabel)
    refine ⟨fun n hmn hn hunreaped => ?_, fun n o hmn hn ho => (hkeeps n hmn hn).gone ?_⟩
    · have hsound := sound_state x hn
      obtain ⟨config, hconfig, hlaunched⟩ := hsound.attended.holds hsound.coherent hunreaped
      obtain ⟨hlocation, l, hfind⟩ := (hkeeps n hmn hn).held config hconfig
      refine ⟨⟨_, hlaunched.request, ?_⟩, FileTree.contents_eq_ok hfind⟩
      rw [args_process, hlocation, hsound.request_eq]
      rfl
    · rw [config?, outcome?_eq_some_iff.mp ho]
  · intro n q l node hn hlabel hfind
    rcases OnFiles.next_cases (x.next_state n hn) with ⟨b, -, hact⟩ | ⟨after, hothers, -, -⟩
    · rcases act_cases (sound_state x hn.le).coherent hact with ⟨env, -, hadv⟩ | ⟨hsame, -, -⟩
      · exact find_of_advance hadv hfind
      · exact .inl (by rw [hsame, hfind])
    · exact absurd hothers (hlabel after)

/-! ### A run that is called off -/

/-- A task that settles its option file goes on to check whether its place was taken. -/
lemma next_of_resolve {env : Surroundings} {config : Config.Resolved} (hs : t.stage = .resolving)
    (hr : Config.resolve files env.temporary t.request.projectRoot t.settings t.style =
      (files', .ok config)) :
    OnFiles.next act ⟨t, files⟩ (.act (.advance env)) =
      some ⟨{ t with stage := .checking config }, files'⟩ := by
  simp [OnFiles.next, act, advance, hs, hr]

/-- A task that is about to settle its option file. -/
def aboutToSettle : Task :=
  { request := { fileName := Path.ofString "a.c", text := "" }, settings := {}, style := {}
    state := .resolvingConfig, stage := .resolving }

/-- Where the option file is generated in an empty tree. -/
def freshPath : Path := Config.generatedPath {} (Path.ofString "/")

/-- The same task in an empty tree when it has generated its option file. -/
def withFreshFile : OnFiles Task :=
  ⟨{ aboutToSettle with
      stage := .checking ⟨.generated freshPath, ({} : Style).exported.warnings⟩ },
    FileTree.set {} [Config.generatedName 0]
      (.file (Utf8.encode ({} : Style).exported.file.render) false)⟩

/-- The first step of the example generates the file. -/
lemma withFreshFile_reached :
    OnFiles.next act ⟨aboutToSettle, {}⟩ (.act (.advance launchesAll)) = some withFreshFile :=
  next_of_resolve rfl (Config.resolve_eq_generated rfl rfl (by simp) rfl rfl)

/-- What is done to it from then on: it is called off while its formatter is running. -/
def calledOffActs : List (OnFiles.Turn Act) :=
  [.advance launchesAll, .advance launchesAll, .advance launchesAll, .advance launchesAll,
    .cancel, .session .signal, .session .noticeCancel, .session .processEnds, .session .reap,
    .advance launchesAll, .advance launchesAll, .advance launchesAll].map .act

/-- The task of the example comes to the point where it settles its option file. -/
lemma aboutToSettle_reached :
    OnFiles.next act ⟨{ request := aboutToSettle.request, settings := {}, style := {} }, {}⟩
      (.act .run) = some ⟨aboutToSettle, {}⟩ := rfl

/-- The run that is called off, from its beginning. -/
def calledOff : FileRun aboutToSettle.request {} {} {} :=
  Execution.ofLabels (OnFiles.next act)
    ⟨{ request := aboutToSettle.request, settings := {}, style := {} }, {}⟩
    (.act .run :: .act (.advance launchesAll) :: calledOffActs)
    (Execution.possible_cons aboutToSettle_reached
      (Execution.possible_cons withFreshFile_reached rfl))

/-- The states of the example behind its first two steps. -/
lemma calledOff_state (n : ℕ) : calledOff.state (n + 2) =
    Execution.stateAfter (OnFiles.next act) withFreshFile calledOffActs n := by
  rw [calledOff, Execution.ofLabels_state, Execution.stateAfter_cons aboutToSettle_reached,
    Execution.stateAfter_cons withFreshFile_reached]

/-- A file is generated, is there when the formatter has been killed, and is gone when the run is
over. -/
theorem generated_file_kept_calledOff :
    calledOff.GeneratesAt freshPath 1 ∧ (calledOff.state 10).machine.session.life = .ended ∧
      (calledOff.state 10).files.contents freshPath =
        .ok (Utf8.encode ({} : Style).exported.file.render) ∧
      (calledOff.state 14).machine.outcome? = some .cancelled ∧
      (calledOff.state 14).files.existsAt freshPath = false := by
  obtain ⟨hfile, -, -⟩ := generated_file_kept calledOff
  have hgenerates : calledOff.GeneratesAt freshPath 1 :=
    ⟨by decide, rfl, _, by rw [calledOff_state 0]; rfl⟩
  have hundisturbed : calledOff.Undisturbed freshPath 1 := by
    intro j after hj hlength hlabel
    have hlength' : j < 14 := hlength
    interval_cases j <;> cases hlabel
  have hlife : (calledOff.state 10).machine.session.life = .ended := by
    rw [calledOff_state 8]
    rfl
  have houtcome : (calledOff.state 14).machine.outcome? = some .cancelled := by
    rw [calledOff_state 12]
    rfl
  obtain ⟨hkept, hgone⟩ := hfile freshPath 1 hgenerates hundisturbed
  exact ⟨hgenerates, hlife, (hkept 10 (by decide) (by decide) (.inr hlife)).2, houtcome,
    hgone 14 _ (by decide) (by decide) houtcome⟩

end SourceFormat.Formatting.Task
