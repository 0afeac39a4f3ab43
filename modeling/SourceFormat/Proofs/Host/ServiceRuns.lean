import Mathlib
import SourceFormat.Host.Services
import SourceFormat.Proofs.Formatting.CompletedOutcome

/-!
# A host lets a service run in one of its orders

A host decides who goes on next: sessions before calls, calls before processes, and the clock only
when nobody can go on.  What is proved about every order of the steps of a service holds on a host,
if each step of the host is a step of the service, or something that others do to the files.

`World.services_serve`: this is so for a service that formats one document, up to the answer that
the program gets.
-/

namespace SourceFormat.Host

open Subprocess (Remains Session)
open Formatting (Outcome Request Service Task)

/-- What can happen on a host behind the call that was made: nobody makes another one, and what a
supervisor collects was left behind by an exchange. -/
inductive Own : OnFiles.Turn (Task.Surroundings × Service.Action) → Prop where
  | stepFormat (env : Task.Surroundings) (c : ℕ) : Own (.act (env, .stepFormat c))
  | stepCancel (env : Task.Surroundings) (c : ℕ) : Own (.act (env, .stepCancel c))
  | happens (env : Task.Surroundings) (i : ℕ) {e : Session.Event}
      (h : ∀ found, e = .collect found → ∃ remains : Remains, found = remains.collected) :
      Own (.act (env, .session i e))
  | others (files : FileTree) : Own (.others files)

/-- One service on its files leads to another by what can happen on a host. -/
def Reaches : OnFiles Service → OnFiles Service → Prop :=
  Relation.ReflTransGen fun s s' => ∃ turn, Own turn ∧ OnFiles.next Service.act s turn = some s'

namespace Play

/-- The service of a play, with the files of its host. -/
def onFiles (p : Play Service) : OnFiles Service := ⟨p.machine, p.world.files⟩

variable {p p' : Play Service} {s s' : Service} {files files' : FileTree}

/-- What the host tells a session is a step of the service. -/
lemma act_of_notify {i : ℕ} {e : Session.Event} (h : Machine.service.notify s i e = some s')
    (env : Task.Surroundings) (files : FileTree) :
    s.act files (env, .session i e) = some (s', files) := by
  obtain ⟨⟨s'', files'⟩, hstep, rfl⟩ := Option.map_eq_some_iff.mp h
  obtain ⟨t, ht, hsession⟩ := Option.bind_eq_some_iff.mp hstep
  obtain ⟨t', hstep', heq⟩ := Option.map_eq_some_iff.mp hsession
  cases heq
  simp [Service.act, Service.step, ht, hstep']

/-- What a host has the supervisor collect was left behind by the exchange. -/
lemma collects_of_eventOf {clock : ℕ} {session : Session} {j j' : Job} {e : Session.Event}
    (h : eventOf clock session j = some (e, j')) :
    ∀ found, e = .collect found → ∃ remains : Remains, found = remains.collected := by
  rintro found rfl
  unfold eventOf at h
  dsimp only at h
  split at h
  · cases h
  · split at h
    · split_ifs at h <;> cases h
    · split_ifs at h <;> cases h
    · split_ifs at h
      · cases h
      · cases h
      · cases h
      · obtain ⟨remains, -, heq⟩ := Option.map_eq_some_iff.mp h
        cases heq
        exact ⟨remains, rfl⟩
    all_goals cases h

/-- The host takes a service where its sessions step. -/
lemma reaches_of_stepSessions {sessions : List Session} {i : ℕ}
    (h : stepSessions Machine.service p i sessions = some p') : Reaches p.onFiles p'.onFiles := by
  induction sessions generalizing i with
  | nil => cases h
  | cons session rest ih =>
    simp only [stepSessions, Option.orElse_eq_or, Option.or_eq_some_iff] at h
    rcases h with (hbegin | ⟨-, hevent⟩) | ⟨-, hrest⟩
    · -- a process begins, which is nothing to the service
      unfold begin at hbegin
      split at hbegin
      · cases hbegin
      · split at hbegin
        · split at hbegin <;> cases hbegin
          exact .refl
        · cases hbegin
    · obtain ⟨j, -, hj⟩ := Option.bind_eq_some_iff.mp hevent
      obtain ⟨⟨e, j'⟩, he, hnotify⟩ := Option.bind_eq_some_iff.mp hj
      obtain ⟨machine, hmachine, rfl⟩ := Option.map_eq_some_iff.mp hnotify
      refine .single ⟨_, .happens p.world.surroundings i (collects_of_eventOf he), ?_⟩
      simp [OnFiles.next, onFiles, act_of_notify hmachine, setJob]
    · exact ih hrest

/-- The host takes a service where its first possible action leads. -/
lemma reaches_of_firstAction {env : Task.Surroundings} {actions : List Service.Action}
    (howns : ∀ a ∈ actions, Own (.act (env, a)))
    (h : Machine.firstAction env s files actions = some (s', files')) :
    Reaches ⟨s, files⟩ ⟨s', files'⟩ := by
  induction actions with
  | nil => cases h
  | cons a rest ih =>
    rw [Machine.firstAction] at h
    split at h
    · rename_i hstep
      cases h
      refine .single ⟨_, howns a (List.mem_cons_self ..), ?_⟩
      simp [OnFiles.next, Service.act, hstep]
    · exact ih (fun a ha => howns a (List.mem_cons_of_mem _ ha)) h

/-- The host takes a service where the processes of its jobs lead it and the files. -/
lemma reaches_of_stepJobs {jobs : List (ℕ × Job)} (h : stepJobs p jobs = some p') :
    Reaches p.onFiles p'.onFiles := by
  induction jobs with
  | nil => cases h
  | cons entry rest ih =>
    rw [stepJobs] at h
    split at h
    · cases h
      exact .single ⟨_, .others _, rfl⟩
    · exact ih h

/-- Every step of the host is a step of the service, or somebody's change of the files, or nothing
to both. -/
theorem reaches_of_step (h : p.step Machine.service = some p') :
    Reaches p.onFiles p'.onFiles := by
  simp only [step, Option.orElse_eq_or, Option.or_eq_some_iff] at h
  rcases h with hsessions | ⟨-, hcalls | ⟨-, hjobs⟩⟩
  · exact reaches_of_stepSessions hsessions
  · obtain ⟨⟨machine, files⟩, hadvance, rfl⟩ := Option.map_eq_some_iff.mp hcalls
    refine reaches_of_firstAction (fun a ha => ?_) hadvance
    rw [List.mem_append, List.mem_map, List.mem_map] at ha
    rcases ha with ⟨c, -, rfl⟩ | ⟨c, -, rfl⟩
    · exact .stepCancel _ c
    · exact .stepFormat _ c
  · exact reaches_of_stepJobs hjobs

/-- The host takes a service where it settles. -/
lemma reaches_settle (fuel : ℕ) (p : Play Service) :
    Reaches p.onFiles (p.settle Machine.service fuel).onFiles := by
  induction fuel generalizing p with
  | zero => exact .refl
  | succ fuel ih =>
    rw [settle]
    split
    · rename_i p' hstep
      exact (reaches_of_step hstep).trans (ih p')
    · exact .refl

/-- The host takes a service through all the time that is waited for. -/
lemma reaches_waitFor (holds : Play Service → Bool) (limit : Option ℕ) (fuel : ℕ)
    (p : Play Service) : Reaches p.onFiles (p.waitFor Machine.service holds limit fuel).onFiles := by
  induction fuel generalizing p with
  | zero => exact .refl
  | succ fuel ih =>
    -- the clock is nothing to the service
    have hsettle := reaches_settle manySteps p
    unfold waitFor
    generalize p.settle Machine.service manySteps = q at hsettle
    dsimp only
    split
    · exact hsettle
    · split
      · rename_i t _
        exact hsettle.trans (ih { q with world := { q.world with clock := t } })
      · rename_i t _ _
        split
        · exact hsettle.trans (ih { q with world := { q.world with clock := t } })
        · exact hsettle
      · exact hsettle
      · exact hsettle

end Play

/-! ## The call that was made -/

section call

variable {s s' : Service} {files files' : FileTree}

/-- A call that gets on leaves the list of requests as it is. -/
lemma map_request_set {formats : List Service.FormatCall} {c : ℕ} {call call' : Service.FormatCall}
    (hc : formats[c]? = some call) (hrequest : call'.request = call.request) :
    (formats.set c call').map (·.request) = formats.map (·.request) := by
  obtain ⟨hlt, rfl⟩ := List.getElem?_eq_some_iff.mp hc
  refine List.ext_getElem? fun d => ?_
  rw [List.getElem?_map, List.getElem?_map, List.getElem?_set]
  split
  · subst d
    simp [hlt, hrequest]
  · rfl

/-- Nobody makes another call. -/
lemma requests_moves {env : Task.Surroundings} {a : Service.Action}
    (h : Service.Moves s env files a s') (ha : ∀ r, a ≠ .format r) :
    s'.formats.map (·.request) = s.formats.map (·.request) := by
  cases h with
  | format r => exact absurd rfl (ha r)
  | number hc | insert hc | refuse hc | finish hc | leave hc | leaveStale hc =>
    exact map_request_set hc rfl
  | mark hc | callOff hc =>
    rw [Service.moveFormat_formats, Service.onTask_formats]
    exact map_request_set hc rfl
  | markWithdrawn | callOffWithdrawn =>
    rw [Service.moveCancel_formats, Service.onTask_formats]
  | cancel | begin | advance | withdraw | withdrawNothing | session => rfl

/-- What can happen on a host changes no request and makes no call. -/
lemma requests_of_reaches {s s' : OnFiles Service} (h : Reaches s s') :
    s'.machine.formats.map (·.request) = s.machine.formats.map (·.request) := by
  induction h with
  | refl => rfl
  | tail _ hstep ih =>
    obtain ⟨turn, hown, hnext⟩ := hstep
    rw [← ih]
    rcases OnFiles.next_cases hnext with ⟨⟨env, a⟩, rfl, hact⟩ | ⟨_, -, hsame, -⟩
    · refine requests_moves (Service.moves_of_step hact) ?_
      rintro r rfl
      cases hown
    · rw [hsame]

/-- When the only call has returned, its task has, and no option file is held. -/
lemma held_eq_nil (hc : s.Coherent) {call : Service.FormatCall} {o : Outcome}
    (hcall : s.formats = [call]) (hs : call.stage = .returned o) : Machine.service.held s = [] := by
  refine List.flatMap_eq_nil_iff.mpr fun t ht => ?_
  obtain ⟨i, ht⟩ := List.mem_iff_getElem?.mp ht
  obtain ⟨c, call', hc', hs', rfl⟩ := hc.owned ht
  obtain ⟨-, rfl⟩ : c = 0 ∧ call = call' := by
    rw [hcall, List.getElem?_singleton] at hc'
    split at hc' <;> simp_all
  obtain ⟨-, t', ht', -, hfits⟩ := hc.known hc' hs'
  obtain rfl := Option.some.inj (ht.symm.trans ht')
  rw [hs] at hfits
  obtain ⟨o', ho'⟩ := hfits
  simp [Task.config?, ho']

end call

/-! ## What the program is answered -/

/-- Formatting on a host is a run of the service with one call. -/
lemma reaches_formatting (w : World) (settings : Settings) (style : Style) (r : Request) :
    Reaches ⟨({ settings, style } : Service).format r, w.files⟩
      (w.formatting settings style r).onFiles :=
  (Play.reaches_settle Play.manySteps
    { machine := ({ settings, style } : Service).format r, world := w }).trans
    (Play.reaches_waitFor _ _ _ _)

/-- What a service has come to on a host, it has come to in one of its orders. -/
lemma exists_run_formatting (w : World) (settings : Settings) (style : Style) (r : Request) :
    ∃ x : Service.FileRun settings style w.files,
      x.state x.length = (w.formatting settings style r).onFiles ∧ x.CollectsRemains := by
  have hmono : ∀ s s', (∃ turn, Own turn ∧ OnFiles.next Service.act s turn = some s') →
      ∃ turn, (Own turn ∨ turn = .act (w.surroundings, .format r)) ∧
        OnFiles.next Service.act s turn = some s' :=
    fun _ _ ⟨turn, hown, hnext⟩ => ⟨turn, .inl hown, hnext⟩
  have hrun : Relation.ReflTransGen (fun s s' => ∃ turn,
      (Own turn ∨ turn = .act (w.surroundings, .format r)) ∧
        OnFiles.next Service.act s turn = some s') ⟨{ settings, style }, w.files⟩
      (w.formatting settings style r).onFiles :=
    .head ⟨_, .inr rfl, rfl⟩
      (Relation.ReflTransGen.mono hmono _ _ (reaches_formatting w settings style r))
  obtain ⟨x, hstate, hlabels⟩ := Execution.exists_of_reflTransGen hrun
  refine ⟨x, hstate, fun j env i found hj hlabel => ?_⟩
  rcases hlabels j hj with hown | hformat
  · rw [hlabel] at hown
    cases hown with
    | happens _ _ hcollects => exact hcollects found rfl
  · cases hlabel.symm.trans hformat

/-- The only call of the service is the one that the program has made. -/
lemma exists_call_formatting {w : World} {settings : Settings} {style : Style} {r : Request}
    {o : Outcome}
    (ho : World.formatting.firstOutcome? (w.formatting settings style r).machine = some o) :
    ∃ call, (w.formatting settings style r).machine.formats = [call] ∧ call.request = r ∧
      call.stage = .returned o := by
  have hreaches := reaches_formatting w settings style r
  -- the run itself is never unfolded
  generalize w.formatting settings style r = p at hreaches ho ⊢
  have hrequests : p.machine.formats.map (·.request) = [r] := requests_of_reaches hreaches
  obtain ⟨call, hcall, hrequest⟩ := List.map_eq_singleton_iff.mp hrequests
  have houtcome : call.outcome? = some o := by
    simpa only [World.formatting.firstOutcome?, hcall, List.head?_cons, Option.bind_some] using ho
  exact ⟨call, hcall, hrequest, Service.FormatCall.stage_of_outcome? houtcome⟩

/-- **A host answers as a run of the service does.** When the call of the program has returned, its
answer is that of one order of the steps of the service, of its sessions and of everybody else. -/
theorem World.services_serve (w : World) (t : FileTree) (settings : Settings) (style : Style)
    (r : Request)
    (hreturns : (formatting.firstOutcome?
      (World.formatting { w with files := t } settings style r).machine).isSome) :
    ∃ x : Service.FileRun settings style t, ∀ l, x.Spares l →
      x.Serves r l (w.services.format t settings style r) := by
  obtain ⟨o, ho⟩ := Option.isSome_iff_exists.mp hreturns
  obtain ⟨x, hstate, hcollects⟩ := exists_run_formatting { w with files := t } settings style r
  obtain ⟨call, hcall, hrequest, hreturned⟩ := exists_call_formatting ho
  have hanswer : w.services.format t settings style r =
      World.formatOnce { w with files := t } settings style r := rfl
  rw [hanswer]
  unfold World.formatOnce
  generalize World.formatting { w with files := t } settings style r = p
    at ho hstate hcall
  have hcoherent : p.machine.Coherent := by
    have hend := Service.FileRun.coherent x le_rfl
    rwa [hstate] at hend
  refine ⟨x, fun l hspares => ⟨⟨call, ?_, hrequest, ?_⟩, ?_, hspares, hcollects⟩⟩
  · rw [hstate]
    simp [Play.onFiles, hcall]
  · dsimp only
    rw [ho, hreturned]
    rfl
  · dsimp only [Play.finish]
    rw [hstate, held_eq_nil hcoherent hcall hreturned]
    rfl

end SourceFormat.Host
