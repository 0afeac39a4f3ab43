import Mathlib
import SourceFormat.Proofs.Files.Parent

/-!
# The last component of a path

Between its slashes a path says something or nothing: an empty piece and a `.` say nothing.  What
the last component is does not depend on pieces that say nothing, nor on what stands before the last
piece that says something.

* `said`, `lastSaid?`: the components that the pieces of a path say, and the last of them.
* `lastSaid?_eq_some_iff`: how a path is spelled whose last component is given.  Behind it there is
  nothing but a `Trailing` of slashes and of dots behind slashes.
* `fileName?_eq_some_iff`, `extension?_eq_some_iff`: the same for its name and its extension.
-/

namespace SourceFormat.Path

variable {p : Path} {pre piece trail trail' name stem behind : Bytes} {c : Component}

/-! ## What a path says -/

/-- The components that the pieces of a path say. -/
def said (bs : Bytes) : List Component := (cut bs).filterMap Component.ofPiece?

/-- The last component that a piece of a path says. -/
def lastSaid? (bs : Bytes) : Option Component := (said bs).getLast?

/-- The empty path says nothing. -/
lemma said_nil : said [] = [] := rfl

/-- What is said before and behind a slash is said one after the other. -/
lemma said_append_slash (bs bs' : Bytes) : said (bs ++ slash :: bs') = said bs ++ said bs' := by
  rw [said, cut_append_slash, List.filterMap_append, said, said]

/-- A piece says one component, or nothing. -/
lemma said_of_notMem (h : slash ∉ piece) : said piece = (Component.ofPiece? piece).toList := by
  rw [said, cut_of_notMem h]
  cases hpiece : Component.ofPiece? piece <;> simp [hpiece]

/-- What stands before a piece and what follows are said one after the other. -/
lemma said_append_of_beforePiece (h : BeforePiece pre) (bs : Bytes) :
    said (pre ++ bs) = said pre ++ said bs := by
  rcases h with rfl | ⟨before, rfl⟩
  · rw [List.nil_append, said_nil, List.nil_append]
  · rw [List.append_assoc, List.singleton_append, said_append_slash, said_append_slash, said_nil,
      List.append_nil]

/-- A path's components are what its pieces say, behind a mark of where it starts. -/
lemma exists_start (p : Path) : ∃ start : List Component,
    p.components = start ++ said p.bytes ∧ ∀ c ∈ start, c = .root ∨ c = .here := by
  unfold components said
  split
  · exact ⟨[.root], rfl, by simp⟩
  · obtain ⟨first, rest, hcut⟩ := List.exists_cons_of_ne_nil (cut_ne_nil p.bytes)
    rw [hcut]
    simp only
    split_ifs with hdot
    · refine ⟨[.here], ?_, by simp⟩
      rw [List.filterMap_cons_none (ofPiece?_eq_none_iff.mpr (.inr hdot))]
    · refine ⟨[], ?_, by simp⟩
      cases hfirst : Component.ofPiece? first <;> simp [hfirst]

/-- The name of a file is the last component that its path says. -/
lemma fileName?_eq_some_iff_lastSaid? :
    p.fileName? = some name ↔ lastSaid? p.bytes = some (.name name) := by
  obtain ⟨start, hcomponents, hstart⟩ := exists_start p
  rw [fileName?, hcomponents, List.getLast?_append, ← lastSaid?]
  cases hlast : lastSaid? p.bytes with
  | some c => cases c <;> simp
  | none =>
    rw [Option.none_or]
    refine iff_of_false (fun h => ?_) nofun
    split at h
    · rename_i bytes hbytes
      rcases hstart _ (List.mem_of_getLast? hbytes) with hroot | hhere
      · cases hroot
      · cases hhere
    · cases h

/-! ## What says nothing -/

/-- What may follow the last component of a path: slashes, and dots behind slashes. -/
inductive Trailing : Bytes → Prop where
  | nil : Trailing []
  | slash {trail : Bytes} (h : Trailing trail) : Trailing (slash :: trail)
  | here {trail : Bytes} (h : Trailing trail) : Trailing (Path.slash :: dot :: trail)

/-- Two trails one after the other are a trail. -/
lemma Trailing.append (h : Trailing trail) (h' : Trailing trail') : Trailing (trail ++ trail') := by
  induction h with
  | nil => exact h'
  | slash _ ih => exact .slash ih
  | here _ ih => exact .here ih

/-- What trails behind a path adds nothing to what it says. -/
lemma Trailing.said_append (h : Trailing trail) : ∀ bs, said (bs ++ trail) = said bs := by
  induction h with
  | nil => simp
  | @slash trail _ ih =>
    intro bs
    rw [said_append_slash, ← List.nil_append trail, ih, said_nil, List.append_nil]
  | @here trail _ ih =>
    intro bs
    have hdot : said [dot] = [] := rfl
    rw [said_append_slash, ← List.singleton_append, ih, hdot, List.append_nil]

/-- A piece that says nothing trails behind a path. -/
lemma trailing_of_silent (h : Component.ofPiece? piece = none) : Trailing (slash :: piece) := by
  rcases ofPiece?_eq_none_iff.mp h with rfl | rfl
  · exact .slash .nil
  · exact .here .nil

/-! ## How the last component is spelled -/

/-- A path that says something ends in the piece that says its last component, and in what trails
behind it. -/
lemma exists_spelling (bs : Bytes) (h : lastSaid? bs = some c) :
    ∃ pre piece trail, bs = pre ++ piece ++ trail ∧ BeforePiece pre ∧ slash ∉ piece ∧
      Component.ofPiece? piece = some c ∧ Trailing trail := by
  -- on the length: as long as the last piece says nothing, it trails behind the others
  induction hn : bs.length using Nat.strong_induction_on generalizing bs with
  | _ n ih =>
    subst hn
    obtain ⟨pre, piece, rfl, hpre, hpiece⟩ := exists_last_piece bs
    have hsaid : said (pre ++ piece) = said pre ++ (Component.ofPiece? piece).toList := by
      rw [said_append_of_beforePiece hpre, said_of_notMem hpiece]
    cases hc : Component.ofPiece? piece with
    | some c' =>
      rw [lastSaid?, hsaid, hc, Option.toList_some, List.getLast?_concat, Option.some.injEq] at h
      exact ⟨pre, piece, [], by simp, hpre, hpiece, by rw [hc, h], .nil⟩
    | none =>
      rw [lastSaid?, hsaid, hc, Option.toList_none, List.append_nil] at h
      rcases hpre with rfl | ⟨before, rfl⟩
      · cases h
      · rw [said_append_slash, said_nil, List.append_nil] at h
        obtain ⟨pre, piece', trail, rfl, hpre, hpiece', hc', htrail⟩ :=
          ih before.length (by simp only [List.length_append, List.length_singleton]; omega)
            before h rfl
        exact ⟨pre, piece', trail ++ slash :: piece, by simp, hpre, hpiece', hc',
          htrail.append (trailing_of_silent hc)⟩

/-- How a path is spelled whose last component is given. -/
theorem lastSaid?_eq_some_iff {bs : Bytes} : lastSaid? bs = some c ↔
    ∃ pre piece trail, bs = pre ++ piece ++ trail ∧ BeforePiece pre ∧ slash ∉ piece ∧
      Component.ofPiece? piece = some c ∧ Trailing trail := by
  refine ⟨exists_spelling bs, ?_⟩
  rintro ⟨pre, piece, trail, rfl, hpre, hpiece, hc, htrail⟩
  rw [lastSaid?, htrail.said_append, said_append_of_beforePiece hpre, said_of_notMem hpiece, hc,
    Option.toList_some, List.getLast?_concat]

/-- A piece between slashes is a name if it is neither empty nor a dot nor two. -/
lemma ofPiece?_eq_name_iff (hpiece : slash ∉ piece) :
    Component.ofPiece? piece = some (.name name) ↔ piece = name ∧ IsName name := by
  constructor
  · intro h
    unfold Component.ofPiece? at h
    split_ifs at h with hsilent hup
    · cases h
    · obtain rfl : piece = name := by simpa using h
      rw [not_or] at hsilent
      exact ⟨rfl, hpiece, hsilent.1, hsilent.2, hup⟩
  · rintro ⟨rfl, hname⟩
    exact hname.ofPiece?

/-- How a path is spelled whose file name is given. -/
theorem fileName?_eq_some_iff : p.fileName? = some name ↔
    IsName name ∧ ∃ pre trail, p.bytes = pre ++ name ++ trail ∧ BeforePiece pre ∧
      Trailing trail := by
  rw [fileName?_eq_some_iff_lastSaid?, lastSaid?_eq_some_iff]
  constructor
  · rintro ⟨pre, piece, trail, hp, hpre, hpiece, hc, htrail⟩
    obtain ⟨rfl, hname⟩ := (ofPiece?_eq_name_iff hpiece).mp hc
    exact ⟨hname, pre, trail, hp, hpre, htrail⟩
  · rintro ⟨hname, pre, trail, hp, hpre, htrail⟩
    exact ⟨pre, name, trail, hp, hpre, hname.slash, hname.ofPiece?, htrail⟩

/-! ## Extensions -/

/-- A name is cut behind the only dot that no other one follows. -/
lemma cutAtLastDot_eq_some_iff :
    cutAtLastDot name = some (stem, behind) ↔ name = stem ++ dot :: behind ∧ dot ∉ behind := by
  constructor
  · intro h
    have hsplit := List.takeWhile_append_dropWhile (p := (· ≠ dot)) (l := name.reverse)
    have htake : dot ∉ name.reverse.takeWhile (· ≠ dot) := fun hmem => by
      simpa using List.mem_takeWhile_imp hmem
    unfold cutAtLastDot at h
    split at h
    · cases h
    · rename_i b before hdrop
      have hb : b = dot := by
        have := List.head?_dropWhile_not (· ≠ dot) name.reverse
        rw [hdrop] at this
        simpa using this
      rw [hdrop, hb] at hsplit
      simp only [Option.some.injEq, Prod.mk.injEq] at h
      obtain ⟨rfl, rfl⟩ := h
      refine ⟨?_, by simpa using htake⟩
      have hname := congrArg List.reverse hsplit.symm
      rwa [List.reverse_reverse, List.reverse_append, List.reverse_cons, List.append_assoc,
        List.singleton_append] at hname
  · rintro ⟨rfl, hdot⟩
    have hall : ∀ b ∈ behind.reverse, decide (b ≠ dot) = true := fun b hb =>
      decide_eq_true (ne_of_mem_of_not_mem (List.mem_reverse.mp hb) hdot)
    have hreverse : (stem ++ dot :: behind).reverse = behind.reverse ++ dot :: stem.reverse := by
      simp
    rw [cutAtLastDot, hreverse, List.takeWhile_append_of_pos hall,
      List.dropWhile_append_of_pos hall]
    simp

/-- A path has an extension if there is a dot in its file name, and something before the last
dot. -/
lemma extension?_eq_some_iff : p.extension? = some behind ↔
    ∃ stem, p.fileName? = some (stem ++ dot :: behind) ∧ stem ≠ [] ∧ dot ∉ behind := by
  simp only [extension?, Option.bind_eq_bind, Option.bind_eq_some_iff, Prod.exists,
    cutAtLastDot_eq_some_iff]
  constructor
  · rintro ⟨name, hname, stem, behind', ⟨rfl, hdot⟩, h⟩
    split_ifs at h with hempty
    cases h
    exact ⟨stem, hname, by simpa using hempty, hdot⟩
  · rintro ⟨stem, hname, hempty, hdot⟩
    exact ⟨_, hname, stem, behind, ⟨rfl, hdot⟩, by simp [hempty]⟩

end SourceFormat.Path
