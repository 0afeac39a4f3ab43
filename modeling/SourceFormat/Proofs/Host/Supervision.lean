import SourceFormat.Host.Job
import SourceFormat.Proofs.Subprocess.ExchangeBooks
import SourceFormat.Proofs.Subprocess.SessionCancellation
import SourceFormat.Proofs.Text.Decoding

/-!
# A session with its process

A session and the process that it was started for act on each other only through the exchange and
through the end of the process.  A `Supervision` puts them together, and a `Turn` is one act of the
process, of the writer or one of the captures, of the supervisor or a caller, or of somebody who
ends the process from outside.  They come in any order.

The process is one that starts no others (`Behaviour.Alone`): it reads, writes, closes its channels,
looks at files, sleeps and comes to an end.

* `Happens`, `happens_of_next`: what a turn does, with what allows it.
* `Present`, `Gone`: the process is there with its channels, or is gone without them; the books of
  the exchange are in order in both cases.
* `Present.serves`: where the process has to wait, the parent can act, and then the process can.
* `Kept`, `Kept.next`: what holds all along.
-/

namespace SourceFormat.Subprocess

/-- A process that starts no others and knows of none. -/
inductive Behaviour.Alone : Behaviour → Prop
  | exit (e : Ending) : Alone (.exit e)
  | read (c : Channel) (most : ℕ) (next : Bytes → Behaviour) (h : ∀ bs, (next bs).Alone) :
      Alone (.read c most next)
  | write (c : Channel) (bs : Bytes) (next : Unit → Behaviour) (h : (next ()).Alone) :
      Alone (.write c bs next)
  | close (c : Channel) (next : Unit → Behaviour) (h : (next ()).Alone) : Alone (.close c next)
  | visit (change : FileTree → FileTree) (next : FileTree → Behaviour) (h : ∀ t, (next t).Alone) :
      Alone (.visit change next)
  | sleep (millis : ℕ) (next : Unit → Behaviour) (h : (next ()).Alone) : Alone (.sleep millis next)

/-- What a process has done behind its next step.  It has no part in channels that it does not hold,
and of what it writes only so much is done as went into the pipe. -/
def Exchange.Doings.behind (d : Exchange.Doings) (x : Exchange) (holds : List Channel) :
    Behaviour → Exchange.Doings
  | .read c most _ =>
    if c ∈ holds then ((x.read c most).map fun (got, _) => d.take c most got).getD d else d
  | .write c bs _ =>
    if c ∈ holds then
      ((x.write c bs).map fun (rest, _) => d.write c (bs.take (bs.length - rest.length))).getD d
    else d
  | _ => d

/-- Whether the writer and the captures are at work: they are ended when the supervisor has given
the exchange up. -/
def Supervisor.serves : Supervisor → Bool
  | .watching | .killing _ | .draining => true
  | _ => false

end SourceFormat.Subprocess

namespace SourceFormat.Host

open Subprocess

/-- A session and its process. -/
structure Supervision where
  session : Session
  job : Job
  /-- What the process has done to its channels. -/
  done : Exchange.Doings := {}

namespace Supervision

/-- A session that was just started, with pipes of some capacity. -/
def launch (capacity clock : ℕ) (r : Request) (body : Behaviour) : Supervision where
  session := (Session.start {} r (.ok ())).2
  job := { Job.launch clock r body with
    exchange := Exchange.launch capacity (r.input.map Utf8.encode) }

example (clock : ℕ) (r : Request) (body : Behaviour) :
    (launch Job.capacity clock r body).job = Job.launch clock r body := rfl

/-- One act of anybody. -/
inductive Turn where
  /-- The process takes a step, at some time and with the files as they are then. -/
  | process (clock : ℕ) (files : FileTree)
  /-- Somebody ends the process by a signal: the supervisor, or anybody else. -/
  | strike (signal : ℕ)
  /-- The writer or one of the captures takes a step, in which so many bytes are moved at most. -/
  | serve (f : Exchange.Server) (most : Option ℕ)
  /-- Something is done to the session. -/
  | session (a : Session.Turn)

instance : Inhabited Turn := ⟨.session default⟩

/-- Whether the process lets the session have it so: it has ended when its end is learnt, and what
is collected is what the exchange left behind. -/
def allows (s : Supervision) : Session.Turn → Bool
  | .event .processEnds => s.job.ending?.isSome
  | .event (.collect found) => decide (s.job.remains?.map (·.collected) = some found)
  | _ => true

/-- The supervision behind a turn; none if it is not possible now. -/
def next (s : Supervision) : Turn → Option Supervision
  | .process clock files =>
    match s.job.threads.find? (·.number = Job.mainNumber) with
    | some th =>
      if clock < th.wake then none
      else
        (s.job.stepThread clock files th).map fun (job, _) =>
          { s with job, done := s.done.behind s.job.exchange th.holds th.body }
    | none => none
  | .strike signal => some { s with job := s.job.kill Job.mainNumber signal }
  | .serve f most =>
    if s.session.supervisor.serves then
      (s.job.exchange.serve f most).map fun x => { s with job := { s.job with exchange := x } }
    else none
  | .session a =>
    if s.allows a then (s.session.next a).map fun session => { s with session } else none

/-- What is to be delivered of a process that came to this end. -/
def result (s : Supervision) (e : Ending) : Result where
  exitCode := e.exitCode
  stdout := Utf8.decode s.done.out
  stderr := Utf8.decode s.done.err

variable {s s' : Supervision} {input : Bytes} {d : Exchange.Doings}

/-- What a turn does, with what allows it. -/
inductive Happens (s : Supervision) : Turn → Supervision → Prop
  | process {clock : ℕ} {files files' : FileTree} {th : Thread} {job : Job}
      (hth : s.job.threads.find? (·.number = Job.mainNumber) = some th)
      (hstep : s.job.stepThread clock files th = some (job, files')) :
      Happens s (.process clock files)
        { s with job, done := s.done.behind s.job.exchange th.holds th.body }
  | strike (signal : ℕ) :
      Happens s (.strike signal) { s with job := s.job.kill Job.mainNumber signal }
  | serve {f : Exchange.Server} {most : Option ℕ} {x : Exchange}
      (hserves : s.session.supervisor.serves = true)
      (hserve : s.job.exchange.serve f most = some x) :
      Happens s (.serve f most) { s with job := { s.job with exchange := x } }
  | session {a : Session.Turn} {session : Session} (hallows : s.allows a = true)
      (hsession : s.session.next a = some session) : Happens s (.session a) { s with session }

/-- Every turn that is possible does one of these things. -/
lemma happens_of_next {a : Turn} (h : s.next a = some s') : Happens s a s' := by
  cases a with
  | process clock files =>
    simp only [next] at h
    split at h
    · split_ifs at h
      obtain ⟨⟨job, files'⟩, hstep, rfl⟩ := Option.map_eq_some_iff.mp h
      exact .process ‹_› hstep
    · cases h
  | strike signal =>
    obtain rfl := Option.some.inj h
    exact .strike signal
  | serve f most =>
    simp only [next, Option.ite_none_right_eq_some] at h
    obtain ⟨hserves, h⟩ := h
    obtain ⟨x, hserve, rfl⟩ := Option.map_eq_some_iff.mp h
    exact .serve hserves hserve
  | session a =>
    simp only [next, Option.ite_none_right_eq_some] at h
    obtain ⟨hallows, h⟩ := h
    obtain ⟨session, hsession, rfl⟩ := Option.map_eq_some_iff.mp h
    exact .session hallows hsession

/-! ## The process -/

/-- The process is there, with the channels that it holds and with the books in order. -/
structure Present (j : Job) (input : Bytes) (d : Exchange.Doings) (th : Thread) : Prop where
  threads : j.threads = [th]
  number : th.number = Job.mainNumber
  ended : j.ended = []
  alone : th.body.Alone
  nodup : th.holds.Nodup
  books : j.exchange.Books input d th.holds

/-- The process has come to its end and holds nothing any more. -/
structure Gone (j : Job) (input : Bytes) (d : Exchange.Doings) (e : Ending) : Prop where
  threads : j.threads = []
  ended : j.ended = [(Job.mainNumber, e)]
  books : j.exchange.Books input d []

/-- A process that is gone has its end noted. -/
lemma Gone.ending? {j : Job} {e : Ending} (h : Gone j input d e) : j.ending? = some e := by
  simp [Job.ending?, h.ended]

/-- A process that is there has no end yet. -/
lemma Present.ending? {j : Job} {th : Thread} (h : Present j input d th) : j.ending? = none := by
  simp [Job.ending?, h.ended]

/-- A process that was just launched is there, with all of its channels and with empty pipes. -/
lemma present_launch {capacity : ℕ} (hcapacity : 0 < capacity) (clock : ℕ) (r : Request)
    {body : Behaviour} (hbody : body.Alone) :
    Present (launch capacity clock r body).job ((r.input.map Utf8.encode).getD []) {}
      ⟨Job.mainNumber, body, clock + Job.latency, [0, 1, 2]⟩ where
  threads := rfl
  number := rfl
  ended := rfl
  alone := hbody
  nodup := by simp
  books := Exchange.books_launch hcapacity _

/-- A process that ends lets go of its channels. -/
lemma Present.conclude {j : Job} {th : Thread} (h : Present j input d th) (e : Ending) :
    Gone (j.conclude th e) input d e where
  threads := by simp [Job.conclude, h.threads]
  ended := by simp [Job.conclude, h.ended, h.number]
  books := h.books.closeAll

/-- The process is the thread that is signalled by its number. -/
lemma Present.find {j : Job} {th : Thread} (h : Present j input d th) :
    j.threads.find? (·.number = Job.mainNumber) = some th := by
  simp [h.threads, h.number]

/-- A signal ends the process. -/
lemma Present.kill {j : Job} {th : Thread} (h : Present j input d th) (signal : ℕ) :
    Gone (j.kill Job.mainNumber signal) input d (.signalled signal) := by
  simp only [Job.kill, h.find]
  exact h.conclude _

/-- A signal does nothing to a process that is gone. -/
lemma Gone.kill {j : Job} {e : Ending} (h : Gone j input d e) (signal : ℕ) :
    j.kill Job.mainNumber signal = j := by
  simp [Job.kill, h.threads]

/-- The process goes on with something else, and with an exchange that it has acted on. -/
lemma Present.goOn {j : Job} {th : Thread} (h : Present j input d th) {x : Exchange}
    {d' : Exchange.Doings} {body : Behaviour} {wake : ℕ} {holds : List Channel}
    (halone : body.Alone) (hnodup : holds.Nodup) (hbooks : x.Books input d' holds) :
    Present ({ j with exchange := x }.goOn ⟨th.number, body, wake, holds⟩) input d'
      ⟨th.number, body, wake, holds⟩ where
  threads := by simp [Job.goOn, h.threads]
  number := h.number
  ended := h.ended
  alone := halone
  nodup := hnodup
  books := hbooks

/-- It reads: from standard input if it holds it, and otherwise there is nothing. -/
lemma Present.stepRead {j j' : Job} {th : Thread} {clock : ℕ} {files files' : FileTree}
    {c : Channel} {most : ℕ} {next : Bytes → Behaviour} (h : Present j input d th)
    (hbody : th.body = .read c most next) (hnext : ∀ bs, (next bs).Alone)
    (hstep : j.stepThread clock files th = some (j', files')) :
    ∃ th', Present j' input (d.behind j.exchange th.holds (.read c most next)) th' := by
  simp only [Job.stepThread, hbody, List.contains_iff_mem] at hstep
  split_ifs at hstep with hc
  · simp only [Job.stepPipes, Exchange.stepProcess, hbody, Option.map_map,
      Option.map_eq_some_iff] at hstep
    obtain ⟨⟨got, x⟩, hread, heq⟩ := hstep
    cases heq
    simp only [Exchange.Doings.behind, if_pos hc, hread]
    exact ⟨_, h.goOn (hnext got) h.nodup (h.books.read hc hread)⟩
  · cases hstep
    simp only [Exchange.Doings.behind, if_neg hc]
    exact ⟨_, h.goOn (hnext []) h.nodup h.books⟩

/-- It writes a part, and then it still has the rest to write or goes on. -/
lemma Present.stepWrite {j j' : Job} {th : Thread} {clock : ℕ} {files files' : FileTree}
    {c : Channel} {bs : Bytes} {next : Unit → Behaviour} (h : Present j input d th)
    (hbody : th.body = .write c bs next) (hnext : (next ()).Alone)
    (hstep : j.stepThread clock files th = some (j', files')) :
    ∃ th', Present j' input (d.behind j.exchange th.holds (.write c bs next)) th' := by
  simp only [Job.stepThread, hbody, List.contains_iff_mem] at hstep
  split_ifs at hstep with hc
  · simp only [Job.stepPipes, Exchange.stepProcess, hbody, Option.map_map,
      Option.map_eq_some_iff] at hstep
    obtain ⟨⟨rest, x⟩, hwrite, heq⟩ := hstep
    cases heq
    obtain ⟨part, hpart, hwritten⟩ := h.books.write hc hwrite
    have hlength : bs.take (bs.length - rest.length) = part := by
      rw [hpart]
      simp
    have hrest : (if rest.isEmpty then next () else .write c rest next).Alone := by
      split_ifs
      · exact hnext
      · exact .write c rest next hnext
    simp only [Exchange.Doings.behind, if_pos hc, hwrite, Option.map_some, Option.getD_some,
      hlength]
    exact ⟨_, h.goOn hrest h.nodup hwritten⟩
  · cases hstep
    simp only [Exchange.Doings.behind, if_neg hc]
    exact ⟨_, h.goOn hnext h.nodup h.books⟩

/-- A step of the process ends it as it wants to, or leaves it there. -/
lemma Present.stepThread {j j' : Job} {th : Thread} {clock : ℕ} {files files' : FileTree}
    (h : Present j input d th) (hstep : j.stepThread clock files th = some (j', files')) :
    (∃ e, th.body = .exit e ∧ Gone j' input (d.behind j.exchange th.holds th.body) e) ∨
      ∃ th', Present j' input (d.behind j.exchange th.holds th.body) th' := by
  have halone := h.alone
  have hbooks := h.books
  cases hbody : th.body with
  | exit e =>
    simp only [Job.stepThread, hbody] at hstep
    cases hstep
    exact .inl ⟨e, rfl, h.conclude e⟩
  | read c most next =>
    rw [hbody] at halone
    cases halone with | read _ _ _ hnext => ?_
    exact .inr (h.stepRead hbody hnext hstep)
  | write c bs next =>
    rw [hbody] at halone
    cases halone with | write _ _ _ hnext => ?_
    exact .inr (h.stepWrite hbody hnext hstep)
  | close c next =>
    rw [hbody] at halone
    cases halone with | close _ _ hnext => ?_
    right
    simp only [Job.stepThread, hbody, List.contains_iff_mem] at hstep
    split_ifs at hstep with hc
    · cases hstep
      exact ⟨_, h.goOn hnext (h.nodup.filter _) (hbooks.close h.nodup hc)⟩
    · cases hstep
      exact ⟨_, h.goOn hnext h.nodup hbooks⟩
  | visit change next =>
    rw [hbody] at halone
    cases halone with | visit _ _ hnext => ?_
    simp only [Job.stepThread, hbody] at hstep
    cases hstep
    exact .inr ⟨_, h.goOn (hnext files) h.nodup hbooks⟩
  | sleep millis next =>
    rw [hbody] at halone
    cases halone with | sleep _ _ hnext => ?_
    simp only [Job.stepThread, hbody] at hstep
    cases hstep
    exact .inr ⟨_, h.goOn hnext h.nodup hbooks⟩
  | fork | await | signal =>
    -- a process that is alone does none of these
    rw [hbody] at halone
    cases halone

/-- Where the process has to wait, one step of the parent is enough for it to go on, however little
is moved in it. -/
lemma Present.serves {j : Job} {th : Thread} {clock : ℕ} {files : FileTree}
    (h : Present j input d th) (hwaits : j.stepThread clock files th = none) :
    ∃ f, ∀ most, ∃ x, j.exchange.serve f most = some x ∧
      ({ j with exchange := x }.stepThread clock files th).isSome := by
  have halone := h.alone
  cases hbody : th.body with
  | read c most next =>
    simp only [Job.stepThread, hbody, List.contains_iff_mem] at hwaits
    split_ifs at hwaits with hc
    simp only [Job.stepPipes, Exchange.stepProcess, hbody, Option.map_eq_none_iff] at hwaits
    obtain ⟨f, hserves⟩ := h.books.serves_of_read_none hc hwaits
    refine ⟨f, fun most => ?_⟩
    obtain ⟨x, hserve, hread⟩ := hserves most
    exact ⟨x, hserve, by
      simpa [Job.stepThread, hbody, hc, Job.stepPipes, Exchange.stepProcess] using hread⟩
  | write c bs next =>
    simp only [Job.stepThread, hbody, List.contains_iff_mem] at hwaits
    split_ifs at hwaits with hc
    simp only [Job.stepPipes, Exchange.stepProcess, hbody, Option.map_eq_none_iff] at hwaits
    obtain ⟨f, hserves⟩ := h.books.serves_of_write_none hwaits
    refine ⟨f, fun most => ?_⟩
    obtain ⟨x, hserve, hwrite⟩ := hserves most
    exact ⟨x, hserve, by
      simpa [Job.stepThread, hbody, hc, Job.stepPipes, Exchange.stepProcess] using hwrite⟩
  | exit | visit | sleep => simp [Job.stepThread, hbody] at hwaits
  | close =>
    simp only [Job.stepThread, hbody] at hwaits
    split_ifs at hwaits
  | fork | await | signal =>
    rw [hbody] at halone
    cases halone

/-! ## What is left of the process -/

/-- A refused input is no failure. -/
lemma inputFailure?_eq_none {left : Remains} {w : Writer} (hinput : left.input = w.answer) :
    left.inputFailure? = none := by
  cases w <;> simp [Remains.inputFailure?, hinput, Writer.answer]

/-- What is collected of a process that is gone: its exit code and all that it has written. -/
lemma Gone.collected {j : Job} {e : Ending} (h : Gone j input d e) {left : Remains}
    (hremains : j.remains? = some left) :
    left.collected = .exited ⟨e.exitCode, Utf8.decode d.out, Utf8.decode d.err⟩ := by
  simp only [Job.remains?, h.ending?] at hremains
  split_ifs at hremains with hdone
  cases hremains
  simp only [Exchange.isDone, Bool.and_eq_true] at hdone
  rw [Remains.collected, inputFailure?_eq_none (w := j.exchange.writer) rfl]
  simp only [h.books.stdout.bytes_eq hdone.1.2, h.books.stderr.bytes_eq hdone.2,
    streamText_eq_decode]

/-- When nobody can serve the exchange any more, everything is left behind. -/
lemma Gone.remains {j : Job} {e : Ending} (h : Gone j input d e)
    (hserve : ∀ f, j.exchange.serve f none = none) : j.remains?.isSome := by
  simp [Job.remains?, h.ending?, h.books.isDone hserve]

/-! ## What holds all along -/

/-- The session, the process and the exchange fit together. -/
structure Kept (r : Request) (s : Supervision) : Prop where
  process : (∃ th, Present s.job ((r.input.map Utf8.encode).getD []) s.done th) ∨
    ∃ e, Gone s.job ((r.input.map Utf8.encode).getD []) s.done e
  coherent : s.session.Coherent
  launched : s.session.Launched r
  /-- Only a process that is gone is taken to have ended. -/
  ended : s.session.life ≠ .running → ∃ e, s.job.ending? = some e
  /-- What is delivered of a process is what it left behind. -/
  exited : ∀ result, s.session.supervisor.delivery? = some (.exited result) →
    ∃ e, s.job.ending? = some e ∧ result = s.result e
  /-- It is killed for being late only when it is late. -/
  killed : s.session.supervisor = .killing true → s.session.expired = true
  /-- That is the only failure that there is. -/
  failed : ∀ error, s.session.supervisor.delivery? = some (.failed error) →
    s.session.expired = true ∧ ∃ limit, error = .timedOut limit

variable {r : Request}

/-- Session, process and exchange fit together behind the launch. -/
lemma kept_launch {capacity : ℕ} (hcapacity : 0 < capacity) (clock : ℕ) (hr : r.validate = .ok ())
    {body : Behaviour} (hbody : body.Alone) : Kept r (launch capacity clock r body) := by
  have hstart : Session.start {} r (.ok ()) = (.ok (), { ({} : Session) with
      state := .started, request := some r, life := .running, supervisor := .watching }) := by
    simp [Session.start, hr]
  have hsession : (launch capacity clock r body).session = { ({} : Session) with
      state := .started, request := some r, life := .running, supervisor := .watching } := by
    rw [launch, hstart]
  exact {
    process := .inl ⟨_, present_launch hcapacity clock r hbody⟩
    coherent := Session.coherent_default.next (a := .start r (.ok ())) rfl
    launched := Session.launched_start (by rw [hstart])
    ended := fun h => absurd (by rw [hsession]) h
    exited := by simp [hsession, Supervisor.delivery?]
    killed := by simp [hsession]
    failed := by simp [hsession, Supervisor.delivery?] }

/-- As long as the process is there, nothing is delivered of it. -/
lemma Kept.running_of_present (h : s.Kept r) {th : Thread} (hpresent : Present s.job input d th) :
    s.session.life = .running ∧
      ∀ result, s.session.supervisor.delivery? ≠ some (.exited result) := by
  have hnone := hpresent.ending?
  refine ⟨?_, fun result hresult => ?_⟩
  · by_contra hlife
    obtain ⟨e, he⟩ := h.ended hlife
    simp [hnone] at he
  · obtain ⟨e, he, -⟩ := h.exited result hresult
    simp [hnone] at he

/-- The process has done something, and nobody has taken notice yet. -/
lemma Kept.of_present (h : s.Kept r) {th : Thread} (hpresent : Present s.job input d th)
    {job : Job} {done : Exchange.Doings}
    (hprocess : (∃ th, Present job ((r.input.map Utf8.encode).getD []) done th) ∨
      ∃ e, Gone job ((r.input.map Utf8.encode).getD []) done e) :
    Kept r { s with job, done } where
  process := hprocess
  coherent := h.coherent
  launched := h.launched
  ended hlife := absurd (h.running_of_present hpresent).1 hlife
  exited result hresult := absurd hresult ((h.running_of_present hpresent).2 result)
  killed := h.killed
  failed := h.failed

/-- Whatever is collected is what the process left behind. -/
lemma Kept.result_of_collect (h : s.Kept r) {found : Collected}
    (hallows : s.allows (.event (.collect found)) = true) :
    ∃ e, s.job.ending? = some e ∧ found = .exited (s.result e) := by
  simp only [allows, decide_eq_true_eq, Option.map_eq_some_iff] at hallows
  obtain ⟨left, hremains, rfl⟩ := hallows
  rcases h.process with ⟨th, hpresent⟩ | ⟨e, hgone⟩
  · simp [Job.remains?, hpresent.ending?] at hremains
  · exact ⟨e, hgone.ending?, hgone.collected hremains⟩

/-- What the other parties do to the session. -/
lemma Kept.event (h : s.Kept r) {e : Session.Event} (hallows : s.allows (.event e) = true)
    {session : Session} (hstep : s.session.step e = some session) :
    Kept r { s with session } := by
  have hcoherent := h.coherent.step hstep
  have hlaunched := h.launched.next (a := .event e) hstep
  have hended := h.ended
  have hexited := h.exited
  have hkilled := h.killed
  have hfailed := h.failed
  cases Session.happens_of_step hstep with
  | signal => exact ⟨h.process, hcoherent, hlaunched, hended, hexited, hkilled, hfailed⟩
  | processEnds =>
    exact ⟨h.process, hcoherent, hlaunched, fun _ => Option.isSome_iff_exists.mp hallows, hexited,
      hkilled, hfailed⟩
  | deadlinePasses =>
    exact ⟨h.process, hcoherent, hlaunched, hended, hexited, fun _ => rfl,
      fun error herror => ⟨rfl, (hfailed error herror).2⟩⟩
  | killCancelled | abandon =>
    exact ⟨h.process, hcoherent, hlaunched, hended, nofun, nofun, nofun⟩
  | killExpired he =>
    exact ⟨h.process, hcoherent, hlaunched, hended, nofun, fun _ => he, nofun⟩
  | expire he =>
    exact ⟨h.process, hcoherent, hlaunched, hended, nofun, nofun,
      fun error herror => ⟨he, _, by cases herror; rfl⟩⟩
  | noticeEnd hl | reapCancelled hl =>
    exact ⟨h.process, hcoherent, hlaunched, fun _ => hended (by simp [hl]), nofun, nofun, nofun⟩
  | reapExpired hl hs =>
    exact ⟨h.process, hcoherent, hlaunched, fun _ => hended (by simp [hl]), nofun, nofun,
      fun error herror => ⟨hkilled hs, _, by cases herror; rfl⟩⟩
  | collect found hs =>
    obtain ⟨e, he, rfl⟩ := h.result_of_collect hallows
    exact ⟨h.process, hcoherent, hlaunched, hended,
      fun result hresult => ⟨e, he, by cases hresult; rfl⟩, nofun, nofun⟩
  | conclude d hs | deliver d hs =>
    rw [hs] at hexited hfailed
    exact ⟨h.process, hcoherent, hlaunched, hended, hexited, nofun, hfailed⟩
  | concludeLate =>
    exact ⟨h.process, hcoherent, hlaunched, hended, nofun, nofun, nofun⟩

/-- No step of the session takes it away from its process and exchange. -/
lemma Kept.session (h : s.Kept r) {a : Session.Turn} (hallows : s.allows a = true)
    {session : Session} (hsession : s.session.next a = some session) :
    Kept r { s with session } := by
  cases a with
  | start r' launch =>
    obtain ⟨answer, -, hresult⟩ := Session.startResult_of_next hsession
    cases hresult with
    | empty | again => exact h
    | unlaunched hc | launched hc => exact absurd hc h.launched.state
  | cancel =>
    have hcoherent := h.coherent.next hsession
    have hlaunched := h.launched.next hsession
    obtain rfl := Option.some.inj hsession
    by_cases hstarted : s.session.state = .started
    · rw [Session.cancel_of_started hstarted] at hcoherent hlaunched ⊢
      exact ⟨h.process, hcoherent, hlaunched, h.ended, h.exited, h.killed, h.failed⟩
    · rw [Session.cancel_of_not_started hstarted]
      exact h
  | event e => exact h.event hallows hsession

/-- Whatever anybody does, everything still fits together. -/
theorem Kept.next (h : s.Kept r) {a : Turn} (hnext : s.next a = some s') : s'.Kept r := by
  cases happens_of_next hnext with
  | process hth hstep =>
    rcases h.process with ⟨th, hpresent⟩ | ⟨e, hgone⟩
    · cases Option.some.inj (hth.symm.trans hpresent.find)
      refine h.of_present hpresent ?_
      rcases hpresent.stepThread hstep with ⟨e, -, hgone⟩ | hstays
      · exact .inr ⟨e, hgone⟩
      · exact .inl hstays
    · simp [hgone.threads] at hth
  | strike signal =>
    rcases h.process with ⟨th, hpresent⟩ | ⟨e, hgone⟩
    · exact h.of_present hpresent (.inr ⟨_, hpresent.kill signal⟩)
    · rw [hgone.kill]
      exact h
  | serve _ hserve =>
    refine ⟨?_, h.coherent, h.launched, h.ended, h.exited, h.killed, h.failed⟩
    rcases h.process with ⟨th, hpresent⟩ | ⟨e, hgone⟩
    · exact .inl ⟨th, { hpresent with books := hpresent.books.serve hserve }⟩
    · exact .inr ⟨e, { hgone with books := hgone.books.serve hserve }⟩
  | session hallows hsession => exact h.session hallows hsession

end Supervision

end SourceFormat.Host
