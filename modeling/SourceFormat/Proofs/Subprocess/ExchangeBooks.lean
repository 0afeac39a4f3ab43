import Mathlib
import SourceFormat.Subprocess.Exchange

/-!
# The books of an exchange

Nothing gets lost between a process and its parent.  What was written to an output is what its
capture has taken away and what is still in the pipe; what was to be handed over is what the process
has read, what is in the pipe, and what the writer has left.

* `OutBooks`, `InBooks`: the books of one output and of the input.
* `Books`: those of an exchange with one process.  Every step of the parent and of the process keeps
  them (`Books.stepWriter`, `Books.stepOut`, `Books.stepErr`, `Books.read`, `Books.write`,
  `Books.close`).
* `Books.serves_of_write_none`, `Books.serves_of_read_none`: where the process has to wait, one step
  of the parent is enough for it to go on, however little is moved in it.
* `left`: how much the parent has left to do when the process is gone.
-/

namespace SourceFormat.Subprocess

namespace Exchange

/-! ## What is moved in one step -/

/-- Where there is anything to move, something is moved. -/
lemma portion_pos (most : Option ℕ) {n : ℕ} (hn : 0 < n) : 0 < portion most n := by
  cases most with
  | none => exact hn
  | some k => exact lt_min hn (by omega)

/-! ## One output -/

section output

variable {c c' : Capture} {p p' : Pipe} {written : Bytes} {holders capacity : ℕ} {most : Option ℕ}

/-- What a capture has taken away and what is in its pipe make up what was written; the pipe holds
no more than it can; so many hold the writing end; and the end is met only when nobody does and
nothing is left. -/
structure OutBooks (capacity : ℕ) (c : Capture) (p : Pipe) (written : Bytes) (holders : ℕ) :
    Prop where
  bytes : c.bytes ++ p.held = written
  fits : p.held.length ≤ capacity
  writers : p.writers = holders
  ended : c.ended = true → p.held = [] ∧ p.writers = 0

/-- A capture moves bytes from the pipe to what it has taken away, and loses none. -/
lemma OutBooks.drain (h : OutBooks capacity c p written holders)
    (hdrain : drain most c p = some (c', p')) : OutBooks capacity c' p' written holders := by
  unfold Exchange.drain at hdrain
  split_ifs at hdrain with hended hempty hwriters
  · cases hdrain
    exact ⟨h.bytes, h.fits, h.writers, fun _ => ⟨List.isEmpty_iff.mp hempty, hwriters⟩⟩
  · cases hdrain
    have hfits := h.fits
    refine ⟨?_, by simp only [List.length_drop]; omega, h.writers,
      fun htrue => absurd htrue hended⟩
    rw [← h.bytes]
    simp [Capture.bytes]

/-- What the capture has taken away at the end is what was written. -/
lemma OutBooks.bytes_eq (h : OutBooks capacity c p written holders) (hended : c.ended = true) :
    c.bytes = written := by
  rw [← h.bytes, (h.ended hended).1, List.append_nil]

/-- A part of what is to be written goes into the pipe. -/
lemma OutBooks.fill (h : OutBooks capacity c p written holders) (hholders : 0 < holders)
    {bs rest : Bytes} (hfill : fillPipe capacity p bs = some (rest, p')) :
    ∃ part, bs = part ++ rest ∧ OutBooks capacity c p' (written ++ part) holders := by
  have hended : ¬ c.ended = true := fun hended => by
    have := (h.ended hended).2
    have := h.writers
    omega
  unfold fillPipe at hfill
  dsimp only at hfill
  split_ifs at hfill with hempty hfull
  · cases hfill
    exact ⟨[], by simpa using hempty, by rwa [List.append_nil]⟩
  · cases hfill
    have hfits := h.fits
    refine ⟨bs.take (capacity - p.held.length), (List.take_append_drop _ _).symm, ?_, ?_, h.writers,
      fun htrue => absurd htrue hended⟩
    · rw [← h.bytes, List.append_assoc]
    · simp only [List.length_append, List.length_take]
      omega

/-- One of those who hold the writing end lets go of it. -/
lemma OutBooks.dropWriter (h : OutBooks capacity c p written (holders + 1)) :
    OutBooks capacity c (Pipe.dropWriter p) written holders where
  bytes := h.bytes
  fits := h.fits
  writers := by simp [Pipe.dropWriter, h.writers]
  ended hended := ⟨(h.ended hended).1, by simp [Pipe.dropWriter, (h.ended hended).2]⟩

/-- A pipe into which nothing goes is full, and the capture makes room in it. -/
lemma OutBooks.drain_of_full (h : OutBooks capacity c p written holders) (hcapacity : 0 < capacity)
    {bs : Bytes} (hfull : fillPipe capacity p bs = none) (most : Option ℕ) :
    ∃ c' p', Exchange.drain most c p = some (c', p') ∧ (fillPipe capacity p' bs).isSome := by
  unfold fillPipe at hfull
  dsimp only at hfull
  split_ifs at hfull with hempty hroom
  have hlength : 0 < p.held.length := by omega
  have hheld : p.held ≠ [] := List.length_pos_iff.mp hlength
  have hended : ¬ c.ended = true := fun hended => hheld (h.ended hended).1
  -- the pipe holds no more than it can, so even one byte less makes room
  have hfits := h.fits
  have hpos := portion_pos most hlength
  have hmakesRoom : capacity - (p.held.drop (portion most p.held.length)).length ≠ 0 := by
    simp only [List.length_drop]
    omega
  refine ⟨{ c with found := p.held.take (portion most p.held.length) :: c.found },
    { p with held := p.held.drop (portion most p.held.length) }, ?_, ?_⟩
  · rw [Exchange.drain, if_neg hended, if_neg (by simpa using hheld)]
  · simp only [fillPipe, hempty, hmakesRoom]
    rfl

end output

/-! ## The input -/

section input

variable {w : Writer} {p p' : Pipe} {input taken : Bytes} {holders : ℕ}

/-- How much of the input is in the pipe or behind it, and who holds the pipe's writing end. -/
def InBooks.Account (w : Writer) (p : Pipe) (input taken : Bytes) : Prop :=
  match w with
  | .writing rest => taken ++ p.held ++ rest = input ∧ p.writers = 1
  | .closed => taken ++ p.held = input ∧ p.writers = 0
  | .refused => taken ++ p.held <+: input ∧ p.writers = 0 ∧ p.readers = 0

/-- What was taken out, what is in the pipe and what the writer has left make up the input, and so
many hold the reading end.  The writer drops the rest only when nobody does. -/
structure InBooks (w : Writer) (p : Pipe) (input taken : Bytes) (holders : ℕ) : Prop where
  readers : p.readers = holders
  account : InBooks.Account w p input taken

/-- What was taken out is the beginning of the input. -/
lemma InBooks.beginning (h : InBooks w p input taken holders) : taken <+: input := by
  have haccount := h.account
  unfold InBooks.Account at haccount
  split at haccount
  · rw [← haccount.1, List.append_assoc]
    exact List.prefix_append _ _
  · rw [← haccount.1]
    exact List.prefix_append _ _
  · exact (List.prefix_append _ _).trans haccount.1

/-- As long as the pipe is open for writing, the writer is not through. -/
lemma InBooks.writing (h : InBooks w p input taken holders) (hwriters : p.writers ≠ 0) :
    ∃ rest, w = .writing rest := by
  have haccount := h.account
  unfold InBooks.Account at haccount
  split at haccount
  · exact ⟨_, rfl⟩
  · exact absurd haccount.2 hwriters
  · exact absurd haccount.2.1 hwriters

/-- An empty pipe that is closed for writing has brought the whole input to those who read it. -/
lemma InBooks.eq_of_closed (h : InBooks w p input taken holders) (hholders : 0 < holders)
    (hheld : p.held = []) (hwriters : p.writers = 0) : taken = input := by
  have hreaders := h.readers
  have haccount := h.account
  unfold InBooks.Account at haccount
  split at haccount
  · omega
  · rw [← haccount.1, hheld, List.append_nil]
  · omega

/-- Bytes go from the front of the pipe to the one who reads. -/
lemma InBooks.take (h : InBooks w p input taken holders) (most : ℕ) :
    InBooks w { p with held := p.held.drop most } input (taken ++ p.held.take most) holders := by
  have haccount := h.account
  have hheld : taken ++ p.held.take most ++ p.held.drop most = taken ++ p.held := by
    rw [List.append_assoc, List.take_append_drop]
  refine ⟨h.readers, ?_⟩
  unfold InBooks.Account at haccount ⊢
  split at haccount <;> rwa [hheld]

/-- A read brings the next bytes of the input; none at all, where some were asked for, are its
end. -/
lemma InBooks.read {most : ℕ} {got : Bytes} (h : InBooks w p input taken holders)
    (hholders : 0 < holders) (hread : readPipe p most = some (got, p')) :
    InBooks w p' input (taken ++ got) holders ∧ (got = [] → 0 < most → taken = input) := by
  unfold readPipe at hread
  split_ifs at hread with hempty hwriters
  · cases hread
    rw [List.isEmpty_iff] at hempty
    exact ⟨by rwa [List.append_nil], fun _ _ => h.eq_of_closed hholders hempty hwriters⟩
  · cases hread
    refine ⟨h.take most, fun hnil hmost => ?_⟩
    rcases List.take_eq_nil_iff.mp hnil with hzero | hheld
    · omega
    · exact absurd (List.isEmpty_iff.mpr hheld) hempty

/-- One of those who hold the reading end lets go of it. -/
lemma InBooks.dropReader (h : InBooks w p input taken (holders + 1)) :
    InBooks w (Pipe.dropReader p) input taken holders := by
  have hreaders := h.readers
  have haccount := h.account
  refine ⟨by simp [Pipe.dropReader, hreaders], ?_⟩
  unfold InBooks.Account at haccount ⊢
  split at haccount
  · exact haccount
  · exact haccount
  · omega

end input

/-! ## The exchange with one process -/

/-- What a process has done so far to its three channels. -/
structure Doings where
  read : Bytes := []
  /-- It has asked for more, and there was no more. -/
  metEnd : Bool := false
  out : Bytes := []
  err : Bytes := []
  deriving Repr, DecidableEq

/-- The same with more written to a channel. -/
def Doings.write (d : Doings) (c : Channel) (bs : Bytes) : Doings :=
  match c with
  | 1 => { d with out := d.out ++ bs }
  | 2 => { d with err := d.err ++ bs }
  | _ => d

/-- The same with more read from a channel, where at most so many bytes were asked for. -/
def Doings.take (d : Doings) (c : Channel) (most : ℕ) (got : Bytes) : Doings :=
  match c with
  | 0 => { d with read := d.read ++ got, metEnd := d.metEnd || (got.isEmpty && decide (0 < most)) }
  | _ => d

/-- What is written elsewhere is no output. -/
lemma Doings.write_of_ne {d : Doings} {c : Channel} {bs : Bytes} (hout : c ≠ 1) (herr : c ≠ 2) :
    d.write c bs = d := by
  unfold Doings.write
  split <;> first | contradiction | rfl

/-- What is read elsewhere is no input. -/
lemma Doings.take_of_ne {d : Doings} {c : Channel} {most : ℕ} {got : Bytes} (hin : c ≠ 0) :
    d.take c most got = d := by
  unfold Doings.take
  split <;> first | contradiction | rfl

/-- The books of an exchange with a process that has done so much and holds these channels. -/
structure Books (x : Exchange) (input : Bytes) (d : Doings) (holds : List Channel) : Prop where
  capacity : 0 < x.capacity
  stdin : InBooks x.writer x.stdin input d.read (holds.count 0)
  stdout : OutBooks x.capacity x.out x.stdout d.out (holds.count 1)
  stderr : OutBooks x.capacity x.err x.stderr d.err (holds.count 2)
  metEnd : d.metEnd = true → d.read = input

variable {x x' : Exchange} {input : Bytes} {d : Doings} {holds : List Channel} {most : Option ℕ}

/-- Behind the launch the books are in order, with nothing moved. -/
lemma books_launch {capacity : ℕ} (hcapacity : 0 < capacity) (input : Option Bytes) :
    Books (launch capacity input) (input.getD []) {} [0, 1, 2] := by
  have hempty : OutBooks capacity {} {} [] 1 := ⟨rfl, Nat.zero_le _, rfl, nofun⟩
  cases input with
  | none => exact ⟨hcapacity, ⟨rfl, rfl, rfl⟩, hempty, hempty, nofun⟩
  | some bs => exact ⟨hcapacity, ⟨rfl, rfl, rfl⟩, hempty, hempty, nofun⟩

/-! ### The parent's steps -/

/-- The three that serve the pipes on the parent's side. -/
inductive Server where
  | writer
  | out
  | err
  deriving Repr, DecidableEq

/-- A step of one of them, in which so many bytes are moved at most. -/
def serve (x : Exchange) (f : Server) (most : Option ℕ) : Option Exchange :=
  match f with
  | .writer => x.stepWriter most
  | .out => x.stepOut most
  | .err => x.stepErr most

/-- A step of the capture of the output keeps the books in order. -/
lemma Books.stepOut (h : Books x input d holds) (hstep : x.stepOut most = some x') :
    Books x' input d holds := by
  obtain ⟨⟨c, p⟩, hdrain, rfl⟩ := Option.map_eq_some_iff.mp hstep
  exact ⟨h.capacity, h.stdin, h.stdout.drain hdrain, h.stderr, h.metEnd⟩

/-- A step of the capture of the errors keeps the books in order. -/
lemma Books.stepErr (h : Books x input d holds) (hstep : x.stepErr most = some x') :
    Books x' input d holds := by
  obtain ⟨⟨c, p⟩, hdrain, rfl⟩ := Option.map_eq_some_iff.mp hstep
  exact ⟨h.capacity, h.stdin, h.stdout, h.stderr.drain hdrain, h.metEnd⟩

/-- A step of the writer keeps the books in order. -/
lemma Books.stepWriter (h : Books x input d holds) (hstep : x.stepWriter most = some x') :
    Books x' input d holds := by
  have hreaders := h.stdin.readers
  have haccount := h.stdin.account
  unfold Exchange.stepWriter at hstep
  split at hstep
  · rename_i rest hw
    rw [hw] at haccount
    obtain ⟨hsum, hwriters⟩ := haccount
    dsimp only at hstep
    split_ifs at hstep with hempty hnobody hfull
    · cases hstep
      rw [List.isEmpty_iff.mp hempty, List.append_nil] at hsum
      exact ⟨h.capacity, ⟨hreaders, hsum, rfl⟩, h.stdout, h.stderr, h.metEnd⟩
    · cases hstep
      exact ⟨h.capacity, ⟨hreaders, ⟨rest, hsum⟩, rfl, hnobody⟩, h.stdout, h.stderr, h.metEnd⟩
    · cases hstep
      refine ⟨h.capacity, ⟨hreaders, ?_, hwriters⟩, h.stdout, h.stderr, h.metEnd⟩
      rw [← List.append_assoc, List.append_assoc, List.take_append_drop]
      exact hsum
  · cases hstep

/-- Whatever the parent does keeps the books. -/
lemma Books.serve (h : Books x input d holds) {f : Server} (hserve : x.serve f most = some x') :
    Books x' input d holds := by
  cases f with
  | writer => exact h.stepWriter hserve
  | out => exact h.stepOut hserve
  | err => exact h.stepErr hserve

/-! ### The steps of the process -/

/-- A read keeps the books in order, if it is noted. -/
lemma Books.read (h : Books x input d holds) {c : Channel} (hc : c ∈ holds) {most : ℕ} {got : Bytes}
    (hread : x.read c most = some (got, x')) : Books x' input (d.take c most got) holds := by
  unfold Exchange.read at hread
  split at hread
  · obtain ⟨⟨bs, p⟩, hpipe, heq⟩ := Option.map_eq_some_iff.mp hread
    cases heq
    obtain ⟨hbooks, hend⟩ := h.stdin.read (List.count_pos_iff.mpr hc) hpipe
    refine ⟨h.capacity, hbooks, h.stdout, h.stderr, fun hmet => ?_⟩
    -- behind the end there is nothing more to read
    have htaken : d.read = input := by
      rcases Bool.or_eq_true_iff.mp hmet with hbefore | hnow
      · exact h.metEnd hbefore
      · simp only [Bool.and_eq_true, List.isEmpty_iff, decide_eq_true_eq] at hnow
        exact hend hnow.1 hnow.2
    refine hbooks.beginning.eq_of_length_le ?_
    simp [htaken]
  · cases hread
    rename_i hne
    rwa [Doings.take_of_ne hne]

/-- A write keeps the books in order, if so much of it is noted as went into the pipe. -/
lemma Books.write (h : Books x input d holds) {c : Channel} (hc : c ∈ holds) {bs rest : Bytes}
    (hwrite : x.write c bs = some (rest, x')) :
    ∃ part, bs = part ++ rest ∧ Books x' input (d.write c part) holds := by
  unfold Exchange.write at hwrite
  split at hwrite
  · obtain ⟨⟨left, p⟩, hfill, heq⟩ := Option.map_eq_some_iff.mp hwrite
    cases heq
    obtain ⟨part, hpart, hbooks⟩ := h.stdout.fill (List.count_pos_iff.mpr hc) hfill
    exact ⟨part, hpart, h.capacity, h.stdin, hbooks, h.stderr, h.metEnd⟩
  · obtain ⟨⟨left, p⟩, hfill, heq⟩ := Option.map_eq_some_iff.mp hwrite
    cases heq
    obtain ⟨part, hpart, hbooks⟩ := h.stderr.fill (List.count_pos_iff.mpr hc) hfill
    exact ⟨part, hpart, h.capacity, h.stdin, h.stdout, hbooks, h.metEnd⟩
  · cases hwrite
    rename_i hout herr
    exact ⟨bs, (List.append_nil bs).symm, by rwa [Doings.write_of_ne hout herr]⟩

/-- The process lets go of a channel. -/
lemma Books.dropHead {c : Channel} (h : Books x input d (c :: holds)) :
    Books (x.close c) input d holds := by
  have hstdin := h.stdin
  have hstdout := h.stdout
  have hstderr := h.stderr
  simp only [List.count_cons] at hstdin hstdout hstderr
  unfold Exchange.close
  split
  · exact ⟨h.capacity, hstdin.dropReader, hstdout, hstderr, h.metEnd⟩
  · exact ⟨h.capacity, hstdin, hstdout.dropWriter, hstderr, h.metEnd⟩
  · exact ⟨h.capacity, hstdin, hstdout, hstderr.dropWriter, h.metEnd⟩
  · rename_i hin hout herr
    simp only [beq_iff_eq, if_neg hin, if_neg hout, if_neg herr] at hstdin hstdout hstderr
    exact ⟨h.capacity, hstdin, hstdout, hstderr, h.metEnd⟩

/-- It is the same in which order the channels are listed. -/
lemma Books.perm {holds' : List Channel} (h : Books x input d holds) (hperm : holds.Perm holds') :
    Books x input d holds' where
  capacity := h.capacity
  stdin := hperm.count_eq 0 ▸ h.stdin
  stdout := hperm.count_eq 1 ▸ h.stdout
  stderr := hperm.count_eq 2 ▸ h.stderr
  metEnd := h.metEnd

/-- A process that closes a channel keeps the books in order. -/
lemma Books.close (h : Books x input d holds) (hnodup : holds.Nodup) {c : Channel}
    (hc : c ∈ holds) : Books (x.close c) input d (holds.filter (· ≠ c)) := by
  have herase : holds.erase c = holds.filter (· ≠ c) := by
    rw [hnodup.erase_eq_filter]
    exact List.filter_congr fun a _ => Bool.eq_iff_iff.mpr (by simp)
  rw [← herase]
  exact (h.perm (List.perm_cons_erase hc)).dropHead

/-- The process lets go of everything. -/
lemma Books.closeAll (h : Books x input d holds) :
    Books (holds.foldl Exchange.close x) input d [] := by
  induction holds generalizing x with
  | nil => exact h
  | cons c holds ih => exact ih h.dropHead

/-! ### Nobody waits for each other -/

/-- Where nothing more can be written, one step of a capture makes room, however little it takes. -/
lemma Books.serves_of_write_none (h : Books x input d holds) {c : Channel} {bs : Bytes}
    (hwrite : x.write c bs = none) :
    ∃ f, ∀ most, ∃ x', x.serve f most = some x' ∧ (x'.write c bs).isSome := by
  unfold Exchange.write at hwrite
  split at hwrite
  · refine ⟨.out, fun most => ?_⟩
    obtain ⟨c', p', hdrain, hfill⟩ :=
      h.stdout.drain_of_full h.capacity (Option.map_eq_none_iff.mp hwrite) most
    refine ⟨{ x with out := c', stdout := p' }, ?_, ?_⟩
    · simp [Exchange.serve, Exchange.stepOut, hdrain]
    · simpa [Exchange.write] using hfill
  · refine ⟨.err, fun most => ?_⟩
    obtain ⟨c', p', hdrain, hfill⟩ :=
      h.stderr.drain_of_full h.capacity (Option.map_eq_none_iff.mp hwrite) most
    refine ⟨{ x with err := c', stderr := p' }, ?_, ?_⟩
    · simp [Exchange.serve, Exchange.stepErr, hdrain]
    · simpa [Exchange.write] using hfill
  · cases hwrite

/-- Where nothing can be read yet, the writer hands something over, however little, or closes the
pipe. -/
lemma Books.serves_of_read_none (h : Books x input d holds) {c : Channel} (hc : c ∈ holds)
    {asked : ℕ} (hread : x.read c asked = none) :
    ∃ f, ∀ most, ∃ x', x.serve f most = some x' ∧ (x'.read c asked).isSome := by
  unfold Exchange.read at hread
  split at hread
  · have hpipe := Option.map_eq_none_iff.mp hread
    unfold readPipe at hpipe
    split_ifs at hpipe with hempty hwriters
    obtain ⟨rest, hrest⟩ := h.stdin.writing hwriters
    have hheld := List.isEmpty_iff.mp hempty
    have hreaders : x.stdin.readers ≠ 0 := by
      rw [h.stdin.readers]
      exact (List.count_pos_iff.mpr hc).ne'
    have hroom := h.capacity.ne'
    refine ⟨.writer, fun most => ?_⟩
    by_cases hlast : rest = []
    · refine ⟨{ x with writer := .closed, stdin := { x.stdin with writers := 0 } }, ?_, ?_⟩
      · simp [Exchange.serve, Exchange.stepWriter, hrest, hlast]
      · simp [Exchange.read, readPipe, hheld]
    · have hpos := (portion_pos most h.capacity).ne'
      refine ⟨{ x with
        writer := .writing (rest.drop (portion most x.capacity))
        stdin := { x.stdin with held := rest.take (portion most x.capacity) } }, ?_, ?_⟩
      · simp [Exchange.serve, Exchange.stepWriter, hrest, hlast, hheld, hreaders, hroom]
      · simp [Exchange.read, readPipe, hlast, hpos]
  · cases hread

/-! ### When the process is gone -/

/-- How much the writer and the captures have left to do when nobody is at the other ends: their
steps, if every step of a capture takes all that is there, and `each` for every byte that is still to
be taken. -/
def left (each : ℕ) (x : Exchange) : ℕ :=
  (if x.writer.isDone then 0 else 1) + ofCapture each x.out x.stdout +
    ofCapture each x.err x.stderr
where
  /-- One of the captures: it takes away what is left, and meets the end. -/
  ofCapture (each : ℕ) (c : Capture) (p : Pipe) : ℕ :=
    if c.ended then 0 else if p.held.isEmpty then 1 else 2 + each * p.held.length

/-- How many bytes the captures have still to take. -/
def untaken (x : Exchange) : ℕ := x.stdout.held.length + x.stderr.held.length

/-- A capture has two steps left at most, and so much for each byte. -/
lemma left.ofCapture_le (each : ℕ) (c : Capture) (p : Pipe) :
    left.ofCapture each c p ≤ 2 + each * p.held.length := by
  unfold left.ofCapture
  split_ifs <;> omega

/-- An exchange has five steps left at most, and so much for each byte. -/
lemma left_le (each : ℕ) (x : Exchange) : x.left each ≤ 5 + each * x.untaken := by
  have hout := left.ofCapture_le each x.out x.stdout
  have herr := left.ofCapture_le each x.err x.stderr
  unfold left untaken
  rw [Nat.mul_add]
  split_ifs <;> omega

/-- A step of a capture leaves it less to do, if bytes count or it takes all of them. -/
lemma left.ofCapture_drain {each : ℕ} {c c' : Capture} {p p' : Pipe}
    (hdrain : drain most c p = some (c', p')) (hcounts : 0 < each ∨ most = none) :
    left.ofCapture each c' p' + 1 ≤ left.ofCapture each c p := by
  unfold drain at hdrain
  split_ifs at hdrain with hended hempty hwriters
  · cases hdrain
    simp [left.ofCapture, hended, hempty]
  · cases hdrain
    have hlength : 0 < p.held.length := List.length_pos_iff.mpr (by simpa using hempty)
    have hpos := portion_pos most hlength
    simp only [left.ofCapture, hended, hempty, List.isEmpty_iff, List.drop_eq_nil_iff,
      List.length_drop, Bool.false_eq_true, if_false]
    split_ifs with hall
    · omega
    · rcases hcounts with heach | rfl
      · have hless : p.held.length - portion most p.held.length + 1 ≤ p.held.length := by omega
        have := Nat.mul_le_mul_left each hless
        rw [Nat.mul_add, Nat.mul_one] at this
        omega
      · exact absurd le_rfl hall

/-- Every step of the parent leaves it less to do when nobody is at the other ends. -/
lemma Books.left_serve {each : ℕ} (h : Books x input d []) {f : Server}
    (hserve : x.serve f most = some x') (hcounts : 0 < each ∨ most = none) :
    x'.left each + 1 ≤ x.left each := by
  cases f with
  | writer =>
    have hreaders : x.stdin.readers = 0 := h.stdin.readers
    simp only [Exchange.serve, Exchange.stepWriter] at hserve
    split at hserve
    · rename_i rest hw
      split_ifs at hserve with hempty
      all_goals
        cases hserve
        simp [left, hw, Writer.isDone]
    · cases hserve
  | out =>
    obtain ⟨⟨c, p⟩, hdrain, rfl⟩ := Option.map_eq_some_iff.mp hserve
    have := left.ofCapture_drain hdrain hcounts
    simp only [left]
    omega
  | err =>
    obtain ⟨⟨c, p⟩, hdrain, rfl⟩ := Option.map_eq_some_iff.mp hserve
    have := left.ofCapture_drain hdrain hcounts
    simp only [left]
    omega

/-- A capture that cannot take anything from a pipe that nobody writes to has met its end. -/
lemma OutBooks.ended_of_drain_none {capacity : ℕ} {c : Capture} {p : Pipe} {written : Bytes}
    (h : OutBooks capacity c p written 0) (hdrain : Exchange.drain most c p = none) :
    c.ended = true := by
  have hwriters := h.writers
  unfold Exchange.drain at hdrain
  split_ifs at hdrain with hended
  exact hended

/-- When the process is gone and the parent cannot do anything more, the exchange is over. -/
lemma Books.isDone (h : Books x input d []) (hserve : ∀ f, x.serve f none = none) :
    x.isDone = true := by
  have hwriter : x.writer.isDone = true := by
    have hreaders : x.stdin.readers = 0 := h.stdin.readers
    have hnone := hserve .writer
    simp only [Exchange.serve, Exchange.stepWriter] at hnone
    split at hnone
    · split_ifs at hnone
    · rename_i hw
      cases hcase : x.writer with
      | writing rest => exact absurd hcase (hw rest)
      | closed | refused => rfl
  have hout := h.stdout.ended_of_drain_none (Option.map_eq_none_iff.mp (hserve .out))
  have herr := h.stderr.ended_of_drain_none (Option.map_eq_none_iff.mp (hserve .err))
  simp [Exchange.isDone, hwriter, hout, herr]

end Exchange

end SourceFormat.Subprocess
