import SourceFormat.Proofs.Host.Supervision

/-!
# Processes and their pipes do not wait for each other, and nothing gets lost

A process writes and reads through pipes of bounded capacity, and its parent serves them while it
waits for the process to end.  `exchange_live_lossless` is about every order of their steps, however
much the writer and the captures move in each of theirs, and every positive capacity:

* a process that has to wait for a pipe can go on behind one step of the writer or of a capture,
  however little is moved in it;
* a session that exits has the exit code of the process and all that it wrote, and the process has
  read the beginning of its input, and all of it if it met the end;
* nothing but the deadline makes the session fail;
* once the process has ended, whether or not it has read its input, the parent alone gets to that
  outcome (`DeliversSoon`), unless the session is cancelled or late: in at most ten steps if the
  captures take all that is there, and otherwise in one more at most for each byte there.

`remaining` counts what the parent has left to do behind the end of the process.
-/

namespace SourceFormat.Host

open Subprocess

namespace Supervision

variable {s s' : Supervision} {r : Request} {e : Ending}

/-! ## How the process ends -/

/-- The process ends like this with a turn: of its own, or by a signal. -/
def Ends (s : Supervision) (a : Turn) (e : Ending) : Prop :=
  ∃ th, s.job.threads = [th] ∧
    ((∃ clock files, a = .process clock files ∧ th.body = .exit e) ∨
      ∃ n, a = .strike n ∧ e = .signalled n)

/-- A process that has ended with a turn has ended of its own, or by a signal. -/
lemma Kept.ends (h : s.Kept r) {a : Turn} (hnext : s.next a = some s')
    (hbefore : s.job.ending? ≠ some e) (hbehind : s'.job.ending? = some e) : s.Ends a e := by
  cases happens_of_next hnext with
  | @process clock files _ _ _ hth hstep =>
    rcases h.process with ⟨th, hpresent⟩ | ⟨e', hgone⟩
    · cases Option.some.inj (hth.symm.trans hpresent.find)
      rcases hpresent.stepThread hstep with ⟨e', hbody, hgone⟩ | ⟨th', hstays⟩
      · obtain rfl : e' = e := Option.some.inj (hgone.ending?.symm.trans hbehind)
        exact ⟨_, hpresent.threads, .inl ⟨clock, files, rfl, hbody⟩⟩
      · simp [hstays.ending?] at hbehind
    · simp [hgone.threads] at hth
  | strike signal =>
    rcases h.process with ⟨th, hpresent⟩ | ⟨e', hgone⟩
    · have he := (hpresent.kill signal).ending?.symm.trans hbehind
      exact ⟨th, hpresent.threads, .inr ⟨signal, rfl, (Option.some.inj he).symm⟩⟩
    · rw [hgone.kill] at hbehind
      exact absurd hbehind hbefore
  | serve | session => exact absurd hbehind hbefore

/-! ## What the process has read -/

/-- It is the beginning of the input, and all of it behind the end. -/
lemma Kept.read (h : s.Kept r) :
    s.done.read <+: (r.input.map Utf8.encode).getD [] ∧
      (s.done.metEnd = true → s.done.read = (r.input.map Utf8.encode).getD []) := by
  rcases h.process with ⟨th, hpresent⟩ | ⟨e, hgone⟩
  · exact ⟨hpresent.books.stdin.beginning, hpresent.books.metEnd⟩
  · exact ⟨hgone.books.stdin.beginning, hgone.books.metEnd⟩

/-! ## The parent serves -/

/-- As long as the process is there, the writer and the captures are at work. -/
lemma Kept.serves (h : s.Kept r) {input : Bytes} {d : Exchange.Doings} {th : Thread}
    (hpresent : Present s.job input d th) : s.session.supervisor.serves = true := by
  have hsees := h.coherent.sees
  rw [(h.running_of_present hpresent).1] at hsees
  unfold Supervisor.Sees at hsees
  split at hsees
  · cases hsees
  · rename_i hs
    rw [hs]
    rfl
  · rename_i hs
    rw [hs]
    rfl
  · cases hsees

/-- A process that has to wait can go on behind one step of the parent. -/
lemma Kept.goesOn (h : s.Kept r) {th : Thread} (hth : th ∈ s.job.threads) {clock : ℕ}
    {files : FileTree} (hwaits : s.job.stepThread clock files th = none) :
    ∃ f, ∀ most, ∃ s', s.next (.serve f most) = some s' ∧
      (s'.job.stepThread clock files th).isSome := by
  rcases h.process with ⟨th', hpresent⟩ | ⟨e, hgone⟩
  · obtain rfl : th = th' := by simpa [hpresent.threads] using hth
    obtain ⟨f, hserves⟩ := hpresent.serves hwaits
    refine ⟨f, fun most => ?_⟩
    obtain ⟨x, hserve, hstep⟩ := hserves most
    exact ⟨{ s with job := { s.job with exchange := x } },
      by simp [Supervision.next, h.serves hpresent, hserve], hstep⟩
  · simp [hgone.threads] at hth

/-! ## Behind the end of the process -/

/-- Whether a turn is a step of the parent: of the writer, of a capture or of the supervisor. -/
def Turn.isWork : Turn → Bool
  | .serve _ _ => true
  | .session a => a.isWork
  | _ => false

/-- Whether all is moved in a turn that can be. -/
def Turn.movesAll : Turn → Bool
  | .serve _ most => most.isNone
  | _ => true

/-- However the parent goes on, it has at most ten steps to take if it always moves all that it can,
and otherwise one more at most for each byte that the captures have still to take; and where it
cannot take one more it has delivered this result. -/
def DeliversSoon (s : Supervision) (result : Result) : Prop :=
  ∀ y : Execution next s, (∀ k, k < y.length → (y.label k).isWork = true) →
    y.length ≤ 10 + s.job.exchange.untaken ∧
      ((∀ k, k < y.length → (y.label k).movesAll = true) → y.length ≤ 10) ∧
      ((∀ a : Turn, a.isWork = true → (y.state y.length).next a = none) →
        (y.state y.length).session.outcome? = some (.ok (.exited result)))

/-- The process is gone, and nobody has called its session off. -/
structure Finishing (r : Request) (s : Supervision) (e : Ending) : Prop where
  kept : s.Kept r
  gone : s.job.ending? = some e
  inTime : s.session.expired = false
  wanted : s.session.state ≠ .cancelled

/-- Behind the end of the process the books of the exchange are closed with that end. -/
lemma Finishing.books (h : s.Finishing r e) :
    Gone s.job ((r.input.map Utf8.encode).getD []) s.done e := by
  rcases h.kept.process with ⟨th, hpresent⟩ | ⟨e', hgone⟩
  · exact absurd (hpresent.ending?.symm.trans h.gone) nofun
  · rwa [← Option.some.inj (hgone.ending?.symm.trans h.gone)]

/-- How much is left to the parent behind the end of the process: its steps, and `each` for every
byte that the captures have still to take. -/
def remaining (each : ℕ) (s : Supervision) : ℕ :=
  s.job.exchange.left each +
    match s.session.supervisor, s.session.life with
    | .watching, .running => 5
    | .watching, _ => 4
    | .draining, _ => 3
    | .concluding _, _ => 2
    | .delivering _, _ => 1
    | _, _ => 0

/-- What is left is at most ten steps, and so much for each byte. -/
lemma remaining_le (each : ℕ) (s : Supervision) :
    s.remaining each ≤ 10 + each * s.job.exchange.untaken := by
  have := s.job.exchange.left_le each
  unfold remaining
  split <;> omega

/-- The supervisor is on its way to deliver what the process left behind, or has done so. -/
lemma Finishing.place (h : s.Finishing r e) :
    (s.session.supervisor = .watching ∧ (s.session.life = .running ∨ s.session.life = .ended)) ∨
      s.session.supervisor = .draining ∨ s.session.supervisor = .concluding (.exited (s.result e)) ∨
        s.session.supervisor = .delivering (.exited (s.result e)) ∨
          s.session.supervisor = .returned (some (.exited (s.result e))) := by
  have hunder := h.kept.coherent.under
  have hsees := h.kept.coherent.sees
  -- what it has at hand is no failure, and no other result
  have hdelivery : ∀ d, s.session.supervisor.delivery? = some d → d = .exited (s.result e) := by
    intro d hd
    cases d with
    | exited result =>
      obtain ⟨e', he', rfl⟩ := h.kept.exited result hd
      rw [Option.some.inj (he'.symm.trans h.gone)]
    | failed error => exact absurd (h.kept.failed error hd).1 (by simp [h.inTime])
  cases hplace : s.session.supervisor with
  | absent => exact absurd hplace h.kept.launched.supervisor
  | watching =>
    rw [hplace] at hsees
    exact .inl ⟨rfl, hsees⟩
  | killing expired =>
    cases expired with
    | true => exact absurd (h.kept.killed hplace) (by simp [h.inTime])
    | false =>
      rw [hplace] at hunder
      exact absurd hunder h.wanted
  | draining => exact .inr (.inl rfl)
  | concluding d => simp [hdelivery d (by rw [hplace]; rfl)]
  | delivering d => simp [hdelivery d (by rw [hplace]; rfl)]
  | returned delivered =>
    cases delivered with
    | none =>
      rw [hplace] at hunder
      exact absurd hunder h.wanted
    | some d => simp [hdelivery d (by rw [hplace]; rfl)]

/-- What the supervisor and the process do to the session on that way. -/
lemma Finishing.event (each : ℕ) (h : s.Finishing r e) {event : Session.Event}
    (hwork : (Session.Turn.event event).isWork = true) {session : Session}
    (hstep : s.session.step event = some session) :
    session.expired = false ∧ session.state ≠ .cancelled ∧
      Supervision.remaining each { s with session } + 1 ≤ s.remaining each := by
  have hcoherent := h.kept.coherent
  have hsees := hcoherent.sees
  have hinTime := h.inTime
  have hwanted := h.wanted
  cases Session.happens_of_step hstep with
  | signal | deadlinePasses => cases hwork
  | killCancelled hp | abandon hp => exact absurd (hcoherent.cancelled_of_summons (.inr hp)) hwanted
  | killExpired he | expire he => simp [hinTime] at he
  | reapCancelled _ hs | reapExpired _ hs =>
    rcases h.place with ⟨hs', -⟩ | hs' | hs' | hs' | hs' <;> simp [hs] at hs'
  | processEnds hl =>
    refine ⟨hinTime, hwanted, ?_⟩
    rcases h.place with ⟨hs, -⟩ | hs | hs | hs | hs
    · simp [remaining, hs, hl]
    all_goals simp [hs, hl, Supervisor.Sees] at hsees
  | noticeEnd hl hs =>
    exact ⟨hinTime, hwanted, by simp [remaining, hs, hl]⟩
  | collect found hs =>
    exact ⟨hinTime, hwanted, by simp [remaining, hs]⟩
  | conclude d hs =>
    exact ⟨hinTime, by simp, by simp [remaining, hs]⟩
  | concludeLate d hs ht =>
    have hunder := hcoherent.under
    rw [hs] at hunder
    exact absurd (hunder.resolve_left ht) hwanted
  | deliver d hs =>
    exact ⟨hinTime, hwanted, by simp [remaining, hs]⟩

/-- Every step of the parent is one fewer to go, if bytes count or it moves all of them. -/
lemma Finishing.next {each : ℕ} (h : s.Finishing r e) {a : Turn} (hwork : a.isWork = true)
    (hcounts : 0 < each ∨ a.movesAll = true) (hnext : s.next a = some s') :
    s'.Finishing r e ∧ s'.result e = s.result e ∧ s'.remaining each + 1 ≤ s.remaining each := by
  have hkept := h.kept.next hnext
  cases happens_of_next hnext with
  | process | strike => cases hwork
  | @serve f most x _ hserve =>
    refine ⟨⟨hkept, h.gone, h.inTime, h.wanted⟩, rfl, ?_⟩
    have hleft := h.books.books.left_serve hserve
      (hcounts.imp_right fun hall => Option.isNone_iff_eq_none.mp hall)
    simp only [remaining]
    omega
  | @session a session hallows hsession =>
    cases a with
    | start | cancel => cases hwork
    | event event =>
      obtain ⟨hinTime, hwanted, hless⟩ := h.event each hwork hsession
      exact ⟨⟨hkept, h.gone, hinTime, hwanted⟩, rfl, hless⟩

/-- Where the parent cannot do anything more it has delivered. -/
lemma Finishing.outcome_of_stuck (h : s.Finishing r e)
    (hstuck : ∀ a : Turn, a.isWork = true → s.next a = none) :
    s.session.outcome? = some (.ok (.exited (s.result e))) := by
  rcases h.place with ⟨hs, hl | hl⟩ | hs | hs | hs | hs
  · have := hstuck (.session (.event .processEnds)) rfl
    simp [Supervision.next, allows, h.gone, Session.next, Session.step, hl] at this
  · have := hstuck (.session (.event .noticeEnd)) rfl
    simp [Supervision.next, allows, Session.next, Session.step, hl, hs] at this
  · -- the exchange is over, so there is something to collect
    have hserve : ∀ f, s.job.exchange.serve f none = none := by
      intro f
      have := hstuck (.serve f none) rfl
      simpa [Supervision.next, hs, Supervisor.serves] using this
    obtain ⟨left, hleft⟩ := Option.isSome_iff_exists.mp (h.books.remains hserve)
    have := hstuck (.session (.event (.collect left.collected))) rfl
    simp [Supervision.next, allows, hleft, Session.next, Session.step, hs] at this
  · have := hstuck (.session (.event .conclude)) rfl
    by_cases ht : s.session.state = .started <;>
      simp [Supervision.next, allows, Session.next, Session.step, hs, Session.finish, ht] at this
  · have := hstuck (.session (.event .deliver)) rfl
    simp [Supervision.next, allows, Session.next, Session.step, hs] at this
  · simp [Session.outcome?, hs, Delivery.outcome]

/-- What is left to do bounds what is done. -/
lemma Finishing.continues (each : ℕ) (h : s.Finishing r e) (y : Execution Supervision.next s)
    (hwork : ∀ k, k < y.length → (y.label k).isWork = true)
    (hcounts : ∀ k, k < y.length → 0 < each ∨ (y.label k).movesAll = true) {i : ℕ}
    (hi : i ≤ y.length) :
    (y.state i).Finishing r e ∧ (y.state i).result e = s.result e ∧
      (y.state i).remaining each + i ≤ s.remaining each := by
  induction i with
  | zero =>
    rw [y.state_zero]
    exact ⟨h, rfl, le_rfl⟩
  | succ i ih =>
    obtain ⟨hfinishing, hresult, hcount⟩ := ih (by omega)
    obtain ⟨hnext, hresult', hless⟩ :=
      hfinishing.next (hwork i hi) (hcounts i hi) (y.next_state i hi)
    exact ⟨hnext, hresult'.trans hresult, by omega⟩

/-- Behind the end of the process its result is delivered soon. -/
lemma Finishing.deliversSoon (h : s.Finishing r e) : s.DeliversSoon (s.result e) := by
  intro y hwork
  obtain ⟨hfinishing, hresult, hcount⟩ :=
    h.continues 1 y hwork (fun _ _ => .inl Nat.one_pos) le_rfl
  refine ⟨?_, fun hall => ?_, fun hstuck => ?_⟩
  · have := s.remaining_le 1
    omega
  · obtain ⟨-, -, hcount⟩ :=
      h.continues 0 y hwork (fun k hk => .inr (hall k hk)) le_rfl
    have := s.remaining_le 0
    omega
  · rw [hfinishing.outcome_of_stuck hstuck, hresult]

/-! ## Runs -/

/-- The outcome of a session is what its supervisor has delivered. -/
lemma delivery?_of_outcome {s : Session} {d : Delivery} (ho : s.outcome? = some d.outcome) :
    s.supervisor.delivery? = some d := by
  unfold Session.outcome? at ho
  split at ho
  · cases d <;> cases ho
  · rename_i d' hs
    rw [hs]
    cases d <;> cases d' <;> cases ho <;> rfl
  · cases ho

/-- **Nothing deadlocks, nothing gets lost.** For every request, every process that starts no
others, every positive capacity of the pipes, every order of the steps of the process, the writer,
the captures, the supervisor and its callers, and however much the writer and the captures move in
each of theirs:

* where the process is there and has to wait, the writer or a capture can take a step behind which
  the process can go on, however little is moved in it;
* an outcome with a result has the exit code with which the process ended, of its own or by a
  signal, and the text of all that it wrote to its two outputs; it has read the beginning of its
  input, and all of it if it met the end;
* an outcome that is an error is the limit of the request;
* once the process has ended, in whatever way and with its input read or not, and as long as the
  session is neither ended nor late, the parent delivers that result within ten steps of its own,
  or, where it does not move all that it can, within one more for each byte still in the two
  outputs. -/
theorem exchange_live_lossless {r : Request} (hr : r.validate = .ok ()) {body : Behaviour}
    (hbody : body.Alone) {capacity : ℕ} (hcapacity : 0 < capacity) (clock : ℕ)
    (x : Execution next (launch capacity clock r body)) :
    (∀ i, i ≤ x.length → ∀ th ∈ (x.state i).job.threads, ∀ now files,
      (x.state i).job.stepThread now files th = none →
        ∃ f, ∀ most, ∃ s', (x.state i).next (.serve f most) = some s' ∧
          (s'.job.stepThread now files th).isSome) ∧
    (∀ i, i ≤ x.length → ∀ result,
      (x.state i).session.outcome? = some (.ok (.exited result)) →
        (∃ j e, j < i ∧ (x.state j).Ends (x.label j) e ∧
          result = {
            exitCode := e.exitCode
            stdout := Utf8.decode (x.state i).done.out
            stderr := Utf8.decode (x.state i).done.err }) ∧
        (x.state i).done.read <+: (r.input.map Utf8.encode).getD [] ∧
        ((x.state i).done.metEnd = true →
          (x.state i).done.read = (r.input.map Utf8.encode).getD [])) ∧
    (∀ i, i ≤ x.length → ∀ error, (x.state i).session.outcome? = some (.error error) →
      ∃ limit, r.timeout = some limit ∧ error = .timedOut limit) ∧
    (∀ i, i ≤ x.length → ∀ e, (x.state i).job.ending? = some e →
      (x.state i).session.state = .started → (x.state i).session.expired = false →
        (x.state i).DeliversSoon ((x.state i).result e)) := by
  have hkept : ∀ {i : ℕ}, i ≤ x.length → (x.state i).Kept r := fun hi =>
    x.invariant (kept_launch hcapacity clock hr hbody) (fun _ _ _ h hnext => h.next hnext) hi
  refine ⟨?_, ?_, ?_, ?_⟩
  · intro i hi th hth now files hwaits
    exact (hkept hi).goesOn hth hwaits
  · intro i hi result ho
    have h := hkept hi
    obtain ⟨e, he, rfl⟩ := h.exited result (delivery?_of_outcome ho)
    -- at the launch there was no end yet, so some turn has brought it about
    have hstart : ¬ (x.state 0).job.ending? = some e := by
      rw [x.state_zero]
      exact nofun
    obtain ⟨j, -, hji, hbefore, hbehind⟩ := Execution.exists_step
      (P := fun k => (x.state k).job.ending? = some e) (Nat.zero_le i) hstart he
    have hends := (hkept (by omega)).ends (x.next_state j (by omega)) hbefore hbehind
    exact ⟨⟨j, e, hji, hends, rfl⟩, h.read⟩
  · intro i hi error ho
    have h := hkept hi
    obtain ⟨-, limit, rfl⟩ := h.failed error (delivery?_of_outcome ho)
    have hlimit := h.coherent.timedOut limit (delivery?_of_outcome ho)
    rw [Session.limit, h.launched.request] at hlimit
    exact ⟨limit, hlimit, rfl⟩
  · intro i hi e he hstarted hinTime
    have h : (x.state i).Finishing r e := ⟨hkept hi, he, hinTime, by simp [hstarted]⟩
    exact h.deliversSoon

/-- A process that writes more than its pipe holds, reads nothing, and fails. -/
def writesAndFails : Behaviour :=
  .write 1 [0x61, 0x62, 0x63] fun _ => .exit (.exited 3)

/-- Its input would not fit into its pipe either. -/
def unreadRequest : Request := { executable := ⟨[0x2F]⟩, input := some "xyz" }

def unreadResult : Result := { exitCode := 3, stdout := "abc", stderr := "" }

/-- A run of it: its first write fills the pipe, one byte of which is taken before the second, and
the writer is refused behind its end. -/
def unreadInput : Execution next (launch 2 0 unreadRequest writesAndFails) :=
  Execution.ofLabels next _
    [.serve .writer none, .process 1 {}, .serve .out (some 1), .process 1 {}, .process 1 {},
      .serve .writer none, .serve .out none, .serve .out none, .serve .err none,
      .session (.event .processEnds),
      .session (.event .noticeEnd), .session (.event (.collect (.exited unreadResult))),
      .session (.event .conclude), .session (.event .deliver)]
    rfl

/-- A process that is blocked gets on by a step of the parent, and its result is delivered behind
its end. -/
theorem exchange_live_lossless_unreadInput :
    (∃ th ∈ (unreadInput.state 2).job.threads,
      (unreadInput.state 2).job.stepThread 1 {} th = none ∧
        ∃ f, ∀ most, ∃ s', (unreadInput.state 2).next (.serve f most) = some s' ∧
          (s'.job.stepThread 1 {} th).isSome) ∧
    (unreadInput.state 5).DeliversSoon unreadResult ∧
    (∃ j e, j < 14 ∧ (unreadInput.state j).Ends (unreadInput.label j) e ∧ e.exitCode = 3) := by
  have h := exchange_live_lossless (r := unreadRequest) rfl
    (.write 1 _ _ (.exit _) : writesAndFails.Alone) (by decide : 0 < 2) 0 unreadInput
  refine ⟨?_, ?_, ?_⟩
  · have hwaits := h.1 2 (by decide) ⟨0, .write 1 [0x63] fun _ => .exit (.exited 3), 1, [0, 1, 2]⟩
      (.head _) 1 {} rfl
    exact ⟨_, .head _, rfl, hwaits⟩
  · exact h.2.2.2 5 (by decide) (.exited 3) rfl rfl rfl
  · obtain ⟨⟨j, e, hj, hends, hresult⟩, -⟩ := h.2.1 14 le_rfl unreadResult rfl
    exact ⟨j, e, hj, hends, (congrArg Result.exitCode hresult).symm⟩

end Supervision

end SourceFormat.Host
