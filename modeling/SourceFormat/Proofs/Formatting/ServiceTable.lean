import Mathlib
import SourceFormat.Proofs.Formatting.ServiceDisplacement

/-!
# What the table of a service holds

Calls come and go by the table: a call puts itself into it for its document, over whatever is there,
and takes out what it finds for its document only if that is its own.  A cancellation takes out
whatever it finds.

`table_holds_pending`: in every order of the steps of any number of calls, the table holds for a
document exactly the call that has come in last, from the step by which it came in to the step by
which it leaves, and only as long as no cancellation for the document has come by.  So the size of
the table is the number of documents with such a call, no call takes another one out, and when all
calls have returned the table is empty.

What is pending (`Run.Pending`) is read off the steps that were taken, not off the table.  The
numbers by which calls know their entries are drawn from all natural numbers; a counter that starts
over behind `2 ^ 64` calls could give one out twice.
-/

namespace SourceFormat.Formatting

namespace Service

variable {settings : Settings} {style : Style} {s s' : Service} {env : Task.Surroundings}
  {files : FileTree} {a : Action}

namespace Run

/-- By step `i` the call puts itself into the table for this document. -/
def EntersAt (x : Run settings style) (key : Path.Key) (c i : ℕ) : Prop :=
  x.InsertsAt c i ∧ ∃ call, (x.state i).formats[c]? = some call ∧ call.key = key

/-- By step `j` a cancellation takes out of the table what there is for this document. -/
def ClearsAt (x : Run settings style) (key : Path.Key) (j : ℕ) : Prop :=
  j < x.length ∧ ∃ (d : ℕ) (call : CancelCall), (x.label j).action = .stepCancel d ∧
    (x.state j).cancels[d]? = some call ∧ call.stage = .arrived ∧ call.key = key

/-- Before step `n` the call has come in last for this document, by step `i`; it has not left, and
no cancellation has come by. -/
structure Pending (x : Run settings style) (key : Path.Key) (c i n : ℕ) : Prop where
  enters : x.EntersAt key c i
  before : i < n
  latest : ∀ d j, x.EntersAt key d j → i < j → n ≤ j
  stays : ∀ k, x.LeavesAt c k → n ≤ k
  kept : ∀ j, x.ClearsAt key j → i < j → n ≤ j

end Run

/-! ## One entry for each document -/

/-- Putting an entry into the table leaves one for each document. -/
lemma nodup_documents_insert (h : (s.inFlight.map (·.1)).Nodup) (key : Path.Key) (id task : ℕ) :
    ((s.insert key id task).inFlight.map (·.1)).Nodup := by
  have hrest : ((s.inFlight.filter (·.1 ≠ key)).map (·.1)).Nodup :=
    h.sublist (List.filter_sublist.map _)
  refine List.nodup_cons.mpr ⟨?_, hrest⟩
  simp

/-- Taking an entry out of the table leaves one for each document. -/
lemma nodup_documents_remove (h : (s.inFlight.map (·.1)).Nodup) (key : Path.Key) :
    ((s.remove key).inFlight.map (·.1)).Nodup :=
  h.sublist (List.filter_sublist.map _)

/-- No move puts two entries for one document into the table. -/
lemma nodup_documents_moves (hm : Moves s env files a s') (h : (s.inFlight.map (·.1)).Nodup) :
    (s'.inFlight.map (·.1)).Nodup := by
  cases hm with
  | insert => exact nodup_documents_insert h ..
  | leave | withdraw => exact nodup_documents_remove h _
  | mark | callOff | markWithdrawn | callOffWithdrawn =>
    rw [onTask_eq]
    exact h
  | format | cancel | number | begin | refuse | advance | finish | leaveStale | withdrawNothing
  | session => exact h

/-- A document is in the table if it has an entry. -/
lemma mem_documents_iff {key : Path.Key} :
    key ∈ s.inFlight.map (·.1) ↔ ∃ id task, s.entry? key = some (id, task) := by
  simp only [Service.entry?, List.mem_map, Option.map_eq_some_iff]
  constructor
  · rintro ⟨entry, hmem, rfl⟩
    cases hfind : s.inFlight.find? (·.1 = entry.1) with
    | none => simpa using List.find?_eq_none.mp hfind entry hmem
    | some found => exact ⟨_, _, found, rfl, rfl⟩
  · rintro ⟨_, _, entry, hfind, -⟩
    exact ⟨entry, List.mem_of_find?_eq_some hfind, by simpa using List.find?_some hfind⟩

/-! ## What the three kinds of steps leave in the table -/

namespace Run

variable {x : Run settings style} {key : Path.Key} {c d i j k n : ℕ} {call : FormatCall}

/-- By its entry a call is in the table, and in flight. -/
lemma EntersAt.entry (h : x.EntersAt key c i) : ∃ call, (x.state (i + 1)).formats[c]? = some call ∧
    call.stage.InFlight ∧ entry? (x.state (i + 1)) key = some (call.id, call.task) := by
  obtain ⟨⟨hi, ha, call, hc, hs⟩, call', hc', rfl⟩ := h
  obtain rfl := Option.some.inj (hc.symm.trans hc')
  have hm := moves_run x hi
  rw [ha] at hm
  obtain ⟨_, hnew, hadv⟩ := advances_of_stepFormat hm hc (by simp [hs])
  cases hadv with
  | insert _ he => exact ⟨_, hnew, ofDisplaced_inFlight _, he⟩
  | number hs' | mark hs' | callOff hs' | refuse hs' | finish hs' | leave hs' | leaveStale hs' =>
    cases hs.symm.trans hs'

/-- A cancellation that clears a document leaves no entry for it. -/
lemma ClearsAt.entry (h : x.ClearsAt key j) : entry? (x.state (j + 1)) key = none := by
  obtain ⟨hj, d, call, ha, hd, hs, rfl⟩ := h
  have hm := moves_run x hj
  rw [ha] at hm
  obtain ⟨_, -, hadv⟩ := advances_of_stepCancel hm hd
  cases hadv with
  | withdraw _ _ hnone => exact hnone
  | withdrawNothing _ hnone =>
    cases entryMoves hm call.key with
    | stays hsame => rw [hsame, hnone]
    | inserts ha' | leaves ha' => cases ha'
    | withdraws _ _ _ _ _ _ hnone' => exact hnone'
  | mark hs' | callOff hs' => cases hs.symm.trans hs'

/-- A call that leaves takes its own entry with it. -/
lemma LeavesAt.entry (h : x.LeavesAt c k) (hc : (x.state k).formats[c]? = some call)
    (he : entry? (x.state k) call.key = some (call.id, call.task)) :
    entry? (x.state (k + 1)) call.key = none := by
  obtain ⟨hk, ha, call', o, hc', hs⟩ := h
  obtain rfl := Option.some.inj (hc.symm.trans hc')
  have hm := moves_run x hk
  rw [ha] at hm
  obtain ⟨_, -, hadv⟩ := advances_of_stepFormat hm hc (by simp [hs])
  cases hadv with
  | leave _ _ hnone => exact hnone
  | leaveStale _ hno => exact absurd he (hno _)
  | number hs' | insert hs' | mark hs' | callOff hs' | refuse hs' | finish hs' =>
    cases hs.symm.trans hs'

/-- A call that leaves is the only one whose entry it takes out. -/
lemma LeavesAt.entry_of_ne (h : x.LeavesAt c k) (hd : (x.state k).formats[d]? = some call)
    (hs : call.stage ≠ .arrived) (hne : d ≠ c)
    (he : entry? (x.state k) key = some (call.id, call.task)) :
    entry? (x.state (k + 1)) key = entry? (x.state k) key := by
  obtain ⟨hk, ha, leaver, o, hc, hleaving⟩ := h
  have hm := moves_run x hk
  rw [ha] at hm
  cases entryMoves hm key with
  | stays hsame => exact hsame
  | inserts ha' hc' hs' =>
    obtain rfl := Action.stepFormat.inj ha'
    rw [Option.some.inj (hc.symm.trans hc')] at hleaving
    cases hleaving.symm.trans hs'
  | leaves ha' hc' hs' _ _ he' =>
    obtain rfl := Action.stepFormat.inj ha'
    rw [he] at he'
    exact absurd ((coherent_state x hk.le).eq_of_id hd hs hc' (by simp [hs'])
      (Prod.mk.inj (Option.some.inj he')).1) hne
  | withdraws ha' => cases ha'

/-! ## Who is pending -/

/-- A call enters by a step of the run. -/
lemma EntersAt.length (h : x.EntersAt key c i) : i < x.length := h.1.1

/-- A call has left behind the step by which it has come in. -/
lemma EntersAt.lt_of_leavesAt (h : x.EntersAt key c i) (hk : x.LeavesAt c k) : i < k := by
  by_contra hki
  have := progress_le x c (i := k) (k := i) (by omega) h.length.le
  rw [h.1.progress_eq, hk.progress_eq] at this
  omega

/-- The call that has just come in is pending. -/
lemma EntersAt.pending (h : x.EntersAt key c i) : x.Pending key c i (i + 1) where
  enters := h
  before := by omega
  latest _ _ _ hij := hij
  stays _ hk := h.lt_of_leavesAt hk
  kept _ _ hij := hij

/-- What is pending was pending before, back to its entry. -/
lemma Pending.back (h : x.Pending key c i (n + 1)) (hi : i < n) : x.Pending key c i n where
  enters := h.enters
  before := hi
  latest d j hj hij := by have := h.latest d j hj hij; omega
  stays k hk := by have := h.stays k hk; omega
  kept j hj hij := by have := h.kept j hj hij; omega

/-- A call stays pending by a step that is none of the three that end this. -/
lemma Pending.succ (h : x.Pending key c i n) (hlatest : ∀ d, ¬ x.EntersAt key d n)
    (hstays : ¬ x.LeavesAt c n) (hkept : ¬ x.ClearsAt key n) : x.Pending key c i (n + 1) where
  enters := h.enters
  before := by have := h.before; omega
  latest d j hj hij := by
    have := h.latest d j hj hij
    rcases eq_or_ne j n with rfl | hne
    · exact absurd hj (hlatest d)
    · omega
  stays k hk := by
    have := h.stays k hk
    rcases eq_or_ne k n with rfl | hne
    · exact absurd hk hstays
    · omega
  kept j hj hij := by
    have := h.kept j hj hij
    rcases eq_or_ne j n with rfl | hne
    · exact absurd hj hkept
    · omega

/-- A pending call is in the table, with its own number and task. -/
lemma Pending.entry (h : x.Pending key c i n) (hn : n ≤ x.length) :
    ∃ call, (x.state n).formats[c]? = some call ∧ call.stage ≠ .arrived ∧
      entry? (x.state n) key = some (call.id, call.task) := by
  have hi : i + 1 ≤ n := h.before
  induction n, hi using Nat.le_induction with
  | base =>
    obtain ⟨call, hc, hs, he⟩ := h.enters.entry
    exact ⟨call, hc, hs.ne_arrived, he⟩
  | succ n hi ih =>
    obtain ⟨call, hc, hs, he⟩ := ih (h.back hi) (by omega)
    have hm := moves_run x (i := n) (by omega)
    obtain ⟨call', hc', hs', hid, htask, -⟩ := format_persists hm hc hs
    refine ⟨call', hc', hs', ?_⟩
    rw [hid, htask]
    cases entryMoves hm key with
    | stays hsame => exact hsame.trans he
    | inserts ha hd hnumbered hkey =>
      -- somebody else would have come in later
      have := h.latest _ n ⟨⟨by omega, ha, _, hd, hnumbered⟩, _, hd, hkey⟩ hi
      omega
    | leaves ha hd hleaving _ _ he' =>
      rw [he] at he'
      obtain rfl := (coherent_state x (i := n) (by omega)).eq_of_id hc hs hd (by simp [hleaving])
        (Prod.mk.inj (Option.some.inj he')).1
      have := h.stays n ⟨by omega, ha, _, _, hd, hleaving⟩
      omega
    | withdraws ha hd harrived hkey =>
      have := h.kept n ⟨by omega, _, _, ha, hd, harrived, hkey⟩ hi
      omega

/-- A pending call is for the document that it is pending for. -/
lemma Pending.key_eq (h : x.Pending key c i n) (hn : n ≤ x.length)
    (hc : (x.state n).formats[c]? = some call) : call.key = key := by
  obtain ⟨-, first, hfirst, rfl⟩ := h.enters
  rw [FormatCall.key, request_eq x h.before.le hn hfirst hc, FormatCall.key]

/-- A call that is pending has come in before. -/
lemma Pending.not_entersAt (h : x.Pending key c i n) (hn : n ≤ x.length) :
    ¬ x.EntersAt key c n := by
  intro hagain
  have hthree := h.enters.1.owns.2
  have := progress_le x c (i := i + 1) (k := n) h.before hn
  rw [hagain.1.progress_eq] at this
  omega

/-- As long as the entry stays, the call is pending. -/
lemma Pending.succ_of_entry (h : x.Pending key c i n) (hn : n < x.length)
    (hsame : entry? (x.state (n + 1)) key = entry? (x.state n) key) :
    x.Pending key c i (n + 1) := by
  obtain ⟨call, hc, hs, he⟩ := h.entry hn.le
  refine h.succ (fun d hd => ?_) (fun hleaves => ?_) fun hclears => ?_
  · -- who comes in puts a number of its own into the table
    obtain ⟨new, hnew, -, hentry⟩ := hd.entry
    rw [hsame, he] at hentry
    obtain ⟨-, -, old, hold, hnumbered⟩ := hd.1
    have hs' : old.stage ≠ .arrived := by simp [hnumbered]
    obtain ⟨new', hnew', -, hid, -⟩ := format_persists (moves_run x hn) hold hs'
    obtain rfl := Option.some.inj (hnew.symm.trans hnew')
    obtain rfl := (coherent_state x hn.le).eq_of_id hc hs hold hs'
      ((Prod.mk.inj (Option.some.inj hentry)).1.trans hid)
    exact h.not_entersAt hn.le hd
  · have hkey := h.key_eq hn.le hc
    have hnone := hleaves.entry hc (by rw [hkey, he])
    rw [hkey, hsame, he] at hnone
    cases hnone
  · rw [hclears.entry, he] at hsame
    cases hsame

end Run

/-- What is in the table has come in as a call that is pending. -/
lemma exists_pending (x : Run settings style) {key : Path.Key} {id task n : ℕ} (hn : n ≤ x.length)
    (he : entry? (x.state n) key = some (id, task)) :
    ∃ (c i : ℕ) (call : FormatCall), x.Pending key c i n ∧ (x.state n).formats[c]? = some call ∧
      call.id = id ∧ call.task = task := by
  induction n generalizing id task with
  | zero => simp [x.state_zero, Service.entry?] at he
  | succ n ih =>
    have hm := moves_run x hn
    cases entryMoves hm key with
    | stays hsame =>
      obtain ⟨c, i, -, hpending, -⟩ := ih (by omega) (hsame.symm.trans he)
      have hpending := hpending.succ_of_entry hn hsame
      obtain ⟨call, hc, -, hentry⟩ := hpending.entry hn
      rw [he] at hentry
      cases hentry
      exact ⟨c, i, call, hpending, hc, rfl, rfl⟩
    | inserts ha hc hs hkey hc' hentry =>
      rw [he] at hentry
      cases hentry
      exact ⟨_, n, _, Run.EntersAt.pending ⟨⟨hn, ha, _, hc, hs⟩, _, hc, hkey⟩, hc', rfl, rfl⟩
    | leaves _ _ _ _ _ _ hnone | withdraws _ _ _ _ _ _ hnone =>
      rw [he] at hnone
      cases hnone

/-- An entry of the table is a pending call with its number and its task. -/
lemma entry_iff_pending (x : Run settings style) {key : Path.Key} {id task n : ℕ}
    (hn : n ≤ x.length) : entry? (x.state n) key = some (id, task) ↔
      ∃ (c i : ℕ) (call : FormatCall), x.Pending key c i n ∧
        (x.state n).formats[c]? = some call ∧ call.id = id ∧ call.task = task := by
  constructor
  · exact exists_pending x hn
  · rintro ⟨c, i, call, hpending, hc, rfl, rfl⟩
    obtain ⟨call', hc', -, he⟩ := hpending.entry hn
    rwa [Option.some.inj (hc.symm.trans hc')]

/-- At every time the table has one entry for each document. -/
lemma nodup_documents (x : Run settings style) {n : ℕ} (hn : n ≤ x.length) :
    ((x.state n).inFlight.map (·.1)).Nodup :=
  x.invariant (P := fun s => (s.inFlight.map (·.1)).Nodup) List.nodup_nil
    (fun _ _ _ h hnext => nodup_documents_moves (moves_of_next hnext) h) hn

/-- As many documents are in flight as have a pending call. -/
lemma encard_pending (x : Run settings style) {n : ℕ} (hn : n ≤ x.length) :
    {key | ∃ c i, x.Pending key c i n}.encard = inFlightCount (x.state n) := by
  have hset : {key | ∃ c i, x.Pending key c i n} =
      ((x.state n).inFlight.map (·.1)).toFinset := by
    ext key
    rw [Finset.mem_coe, List.mem_toFinset, mem_documents_iff]
    constructor
    · rintro ⟨c, i, hpending⟩
      obtain ⟨call, -, -, he⟩ := hpending.entry hn
      exact ⟨_, _, he⟩
    · rintro ⟨id, task, he⟩
      obtain ⟨c, i, -, hpending, -⟩ := exists_pending x hn he
      exact ⟨c, i, hpending⟩
  rw [hset, Set.encard_coe_eq_coe_finsetCard, List.toFinset_card_of_nodup (nodup_documents x hn),
    List.length_map, inFlightCount]

/-- Nothing is in the table of a service whose calls have all returned. -/
lemma Coherent.inFlightCount_eq_zero (h : s.Coherent)
    (hreturned : ∀ (c : ℕ) (call : FormatCall), s.formats[c]? = some call →
      ∃ o, call.stage = .returned o) : s.inFlightCount = 0 := by
  rw [inFlightCount, List.length_eq_zero_iff, List.eq_nil_iff_forall_not_mem]
  intro entry hmem
  obtain ⟨id, task, he⟩ := mem_documents_iff.mp (List.mem_map_of_mem (f := (·.1)) hmem)
  obtain ⟨-, c, call, hc, hs, -⟩ := h.listed he
  obtain ⟨o, ho⟩ := hreturned c call hc
  rw [ho] at hs
  exact hs

/-- **The table holds the calls that are pending.** In every order of the steps of any number of
calls, the table has at most one entry for a document; it has one exactly as long as the call that
has come in last for the document has not left and no cancellation for it has come by, and the entry
is that call's.  As many documents are in flight as have such a call, and none when all calls have
returned.  A call that leaves takes nobody else out. -/
theorem table_holds_pending (x : Run settings style) :
    (∀ n, n ≤ x.length →
      ((x.state n).inFlight.map (·.1)).Nodup ∧
      (∀ key id task, entry? (x.state n) key = some (id, task) ↔
        ∃ (c i : ℕ) (call : FormatCall), x.Pending key c i n ∧
          (x.state n).formats[c]? = some call ∧ call.id = id ∧ call.task = task) ∧
      {key | ∃ c i, x.Pending key c i n}.encard = inFlightCount (x.state n) ∧
      ((∀ (c : ℕ) (call : FormatCall), (x.state n).formats[c]? = some call →
        ∃ o, call.stage = .returned o) → inFlightCount (x.state n) = 0)) ∧
    (∀ n c d i key, x.LeavesAt c n → x.Pending key d i n → d ≠ c →
      entry? (x.state (n + 1)) key = entry? (x.state n) key) := by
  constructor
  · intro n hn
    exact ⟨nodup_documents x hn, fun _ _ _ => entry_iff_pending x hn, encard_pending x hn,
      (coherent_state x hn).inFlightCount_eq_zero⟩
  · intro n c d i key hleaves hpending hne
    obtain ⟨call, hd, hs, he⟩ := hpending.entry hleaves.1.le
    exact hleaves.entry_of_ne hd hs hne he

/-- A run in which a call leaves whose place was taken, with a third call in the table by then. -/
def staleLeaves : Run Task.namedOptions {} :=
  Execution.ofLabels next _
    (onSmall
      [[.format (document "1")], List.replicate 2 (.stepFormat 0), [.format (document "2")],
        List.replicate 3 (.stepFormat 1), [.cancel (document "1").fileName, .stepCancel 0],
        [.format (document "3")], List.replicate 2 (.stepFormat 2),
        List.replicate 7 (.stepFormat 0)])
    (by decide +kernel)

/-- A call whose place was taken leaves the entry of a third alone, and in the end nothing is in the
table. -/
theorem table_holds_pending_staleLeaves :
    (staleLeaves.state 19).formats[0]?.map (·.stage) = some (.returned .cancelled) ∧
      entry? (staleLeaves.state 19) (document "1").fileName.key = some (2, 2) ∧
      inFlightCount (tooLate.state 40) = 0 := by
  have hlength : 18 ≤ staleLeaves.length := by decide
  have hentry : entry? (staleLeaves.state 18) (document "1").fileName.key = some (2, 2) := by
    decide +kernel
  have hleaves : staleLeaves.LeavesAt 0 18 := ⟨by decide, rfl, _, _, rfl, rfl⟩
  refine ⟨rfl, ?_, ?_⟩
  · obtain ⟨d, i, call, hpending, hd, hid, -⟩ :=
      (((table_holds_pending staleLeaves).1 18 hlength).2.1 _ _ _).mp hentry
    have hne : d ≠ 0 := by
      rintro rfl
      cases hd
      cases hid
    rw [(table_holds_pending staleLeaves).2 18 0 d i _ hleaves hpending hne, hentry]
  · refine ((table_holds_pending tooLate).1 40 (by decide)).2.2.2 fun c call hc => ?_
    have hall : ∀ call ∈ (tooLate.state 40).formats, call.outcome?.isSome := by decide
    have hreturned := hall call (List.mem_of_getElem? hc)
    unfold FormatCall.outcome? at hreturned
    split at hreturned
    · exact ⟨_, by assumption⟩
    · cases hreturned

end Service

end SourceFormat.Formatting
