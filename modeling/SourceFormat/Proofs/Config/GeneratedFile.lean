import Mathlib
import SourceFormat.Config.Location
import SourceFormat.Proofs.Files.Joining
import SourceFormat.Proofs.OptionFile.OnDisk
import SourceFormat.Proofs.Text.Utf8

/-!
# The option file that is generated

* `existsAt_generatedPath`: there is nothing yet where an option file is generated.  The names that
  are tried are all different, and there are more of them than files.
* `CanGenerate`, `generate_cases`: an option file is generated exactly if it can be created, there
  is room for its text and the system keeps it.
* `Resolves`, `resolves_resolve`: what settling the option file of a run comes to.  An option file
  that is there is left alone; one that is generated holds the whole text of the exported style; and
  a failure leaves no trace at all.
-/

namespace SourceFormat

namespace Utf8

/-- A byte below 0x80 is a character of its own wherever it stands. -/
lemma Spelling.eq_of_mem {v : ℕ} {bs : Bytes} {b : UInt8} (h : Spelling v bs) (hb : b ∈ bs)
    (hlt : b.toNat < 0x80) : b.toNat = v := by
  cases h <;> simp only [List.mem_cons, List.not_mem_nil, or_false] at hb
  case one ha =>
    rw [hb, ha]
  all_goals
    rcases hb with rfl | rfl | rfl | rfl <;> omega

lemma encode_append (s s' : String) : encode (s ++ s') = encode s ++ encode s' := by
  simp [encode, encodeChars]

/-- The text of a spelling has the characters that its bytes below 0x80 stand for. -/
lemma mem_toList_of_mem_encode {s : String} {b : UInt8} (h : b ∈ encode s) (hlt : b.toNat < 0x80) :
    ∃ c ∈ s.toList, c.toNat = b.toNat := by
  obtain ⟨c, hc, hb⟩ := List.mem_flatMap.mp h
  exact ⟨c, hc, ((spelling_encodeChar c).eq_of_mem hb hlt).symm⟩

end Utf8

namespace Config

variable {t : FileTree}

/-! ## Names -/

/-- A tag is a number with zeros before it, up to six digits. -/
lemma toList_tag (n : ℕ) :
    (tag n).toList = List.replicate (6 - (Nat.toDigits 10 n).length) '0' ++ Nat.toDigits 10 n := by
  simp [tag]

/-- A tag consists of digits. -/
lemma isDigit_of_mem_tag {n : ℕ} {c : Char} (h : c ∈ (tag n).toList) : c.isDigit = true := by
  rw [toList_tag, List.mem_append, List.mem_replicate] at h
  rcases h with ⟨-, rfl⟩ | h
  · rfl
  · exact Nat.isDigit_of_mem_toDigits (by omega) (by omega) h

/-- The number is the one that its digits spell, whatever pads them. -/
lemma ofDigitChars_tag (n : ℕ) : Nat.ofDigitChars 10 (tag n).toList 0 = n := by
  rw [toList_tag, Nat.ofDigitChars_append, Nat.ofDigitChars_replicate_zero, Nat.mul_zero,
    Nat.ofDigitChars_ten_toDigits]

/-- Different numbers have different tags. -/
lemma tag_injective : Function.Injective tag := fun n m h => by
  rw [← ofDigitChars_tag n, h, ofDigitChars_tag]

/-- Different numbers give different names. -/
lemma generatedName_injective : Function.Injective generatedName := by
  intro n m h
  have hnames := Utf8.encode_injective h
  rw [String.append_left_inj, String.append_right_inj] at hnames
  exact tag_injective hnames

/-- A generated name begins with the letter u. -/
lemma head?_generatedName (n : ℕ) : (generatedName n).head? = some 0x75 := by
  have hbegins : (Utf8.encode "uncrustify-bridge").head? = some 0x75 := rfl
  rw [generatedName, Utf8.encode_append, Utf8.encode_append, List.append_assoc, List.head?_append,
    hbegins, Option.some_or]

/-- A generated name is a name, so it adds one component to a path. -/
lemma isName_generatedName (n : ℕ) : Path.IsName (generatedName n) := by
  have hhead := head?_generatedName n
  refine ⟨fun hslash => ?_, fun h => ?_, fun h => ?_, fun h => ?_⟩
  · obtain ⟨c, hc, hvalue⟩ := Utf8.mem_toList_of_mem_encode hslash (by decide)
    obtain rfl : c = '/' := Char.toNat_inj.mp hvalue
    simp only [String.toList_append, List.mem_append] at hc
    rcases hc with (hbegins | htag) | hsuffix
    · revert hbegins
      decide
    · cases isDigit_of_mem_tag htag
    · revert hsuffix
      decide
  all_goals
    rw [h] at hhead
    cases hhead

/-! ## Where there is nothing yet -/

/-- If the name that the search ends at is taken, all the others were taken as well. -/
lemma existsAt_of_freeName {directory : Path} {fuel n : ℕ}
    (h : t.existsAt (freeName t directory fuel n) = true) {k : ℕ} (hk : k ≤ fuel) :
    t.existsAt (directory.join (generatedName (n + k))) = true := by
  induction fuel generalizing n k with
  | zero =>
    obtain rfl : k = 0 := by omega
    exact h
  | succ fuel ih =>
    rw [freeName] at h
    split at h
    · rename_i htaken
      cases k with
      | zero => exact htaken
      | succ k =>
        have := ih h (k := k) (by omega)
        rwa [Nat.add_assoc, Nat.add_comm 1 k] at this
    · rename_i hfree
      exact absurd h hfree

/-- What exists by its name in a directory is a node of the tree. -/
lemma mem_nodes_of_existsAt {directory : Path} {name : Bytes} (hname : Path.IsName name)
    (h : t.existsAt (directory.join name) = true) :
    ∃ l ∈ t.nodes.map (·.1), l.getLast? = some name := by
  obtain ⟨l, n, hfind⟩ := FileTree.existsAt_eq_true_iff.mp h
  obtain ⟨hl, hn⟩ := FileTree.find_eq_ok_iff.mp hfind
  have hlast := FileTree.getLast?_of_locate_join hname hl
  have hne : l ≠ [] := by
    rintro rfl
    cases hlast
  rw [FileTree.node?_eq_find? hne] at hn
  obtain ⟨e, he, -⟩ := Option.map_eq_some_iff.mp hn
  have hkey := List.find?_some he
  exact ⟨l, List.mem_map.mpr ⟨e, List.mem_of_find?_eq_some he, by simpa using hkey⟩, hlast⟩

/-- There are more names to try than nodes, so one of them is free. -/
theorem existsAt_generatedPath (t : FileTree) (directory : Path) :
    t.existsAt (generatedPath t directory) = false := by
  by_contra htaken
  rw [Bool.not_eq_false] at htaken
  have hall : ∀ k : Fin (t.nodes.length + 2),
      ∃ l ∈ (t.nodes.map (·.1)).toFinset, l.getLast? = some (generatedName k) := fun k => by
    obtain ⟨l, hmem, hlast⟩ := mem_nodes_of_existsAt (isName_generatedName _)
      (existsAt_of_freeName htaken (k := k) (by omega))
    exact ⟨l, List.mem_toFinset.mpr hmem, by simpa using hlast⟩
  choose f hmem hlast using hall
  have hinjective : Function.Injective f := fun k k' h => by
    have hnames := hlast k
    rw [h, hlast k'] at hnames
    exact Fin.ext (generatedName_injective (Option.some.inj hnames)).symm
  have hcard := Finset.card_le_card_of_injOn f (s := Finset.univ) (fun k _ => hmem k)
    hinjective.injOn
  have hlength := (t.nodes.map (·.1)).toFinset_card_le
  simp only [Finset.card_univ, Fintype.card_fin, List.length_map] at hcard hlength
  omega

/-- The name that is free is a generated one. -/
lemma exists_freeName (t : FileTree) (directory : Path) (fuel n : ℕ) :
    ∃ k, freeName t directory fuel n = directory.join (generatedName k) := by
  induction fuel generalizing n with
  | zero => exact ⟨n, rfl⟩
  | succ fuel ih =>
    rw [freeName]
    split
    · exact ih (n + 1)
    · exact ⟨n, rfl⟩

/-- The path of a generated file does not ask for a directory. -/
lemma asksForDirectory_generatedPath (t : FileTree) (directory : Path) :
    FileTree.asksForDirectory (generatedPath t directory) = false := by
  obtain ⟨k, hk⟩ := exists_freeName t (absolute t directory) (t.nodes.length + 1) 0
  rw [generatedPath, hk]
  exact FileTree.asksForDirectory_join (isName_generatedName k) _

/-! ## Settling the option file of a run -/

/-- What settling the option file of a run comes to. -/
inductive Resolves (t : FileTree) (temporary : Storage) (root : Option Path) (s : Settings)
    (style : Style) : FileTree × Except GenerateError Resolved → Prop where
  /-- An option file is there, and nothing is touched. -/
  | located {location : Location} (h : locate t root s = some location)
      (hkept : location.isGenerated = false) :
      Resolves t temporary root s style (t, .ok ⟨location, []⟩)
  /-- A new file holds the whole text of the exported style. -/
  | generated {l : SourceFormat.Location} (h : locate t root s = none)
      (hl : t.locate (generatedPath t temporary.directory) = .ok l) (hn : t.node? l = none) :
      Resolves t temporary root s style
        (t.set l (.file (Utf8.encode style.exported.file.render) false),
          .ok ⟨.generated (generatedPath t temporary.directory), style.exported.warnings⟩)
  /-- No file could be created, or the one that was created could not be written and is gone. -/
  | failed (h : locate t root s = none) (e : GenerateError) :
      Resolves t temporary root s style (t, .error e)

/-- What is located is never a generated file. -/
lemma isGenerated_of_locate {root : Option Path} {s : Settings} {location : Location}
    (h : locate t root s = some location) : location.isGenerated = false := by
  unfold locate at h
  cases hproject : locateProject t root with
  | some found =>
    rw [hproject] at h
    cases h
    obtain ⟨p, -, hp⟩ := Option.bind_eq_some_iff.mp hproject
    dsimp only at hp
    split at hp <;> cases hp
    rfl
  | none =>
    rw [hproject] at h
    obtain ⟨p, -, hp⟩ := Option.bind_eq_some_iff.mp h
    split at hp <;> cases hp
    rfl

/-- Letting go of a generated file removes it. -/
lemma release_generated {p : Path} {l : SourceFormat.Location} {n : Node}
    (hfind : t.find p = .ok (l, n)) (hn : n ≠ .directory) (warnings : List Style.LossyConversion) :
    release t ⟨.generated p, warnings⟩ = t.unset l := by
  simp [release, FileTree.removeFile_eq_ok hfind hn, Except.toOption]

/-- Letting go of an option file changes nothing, or removes the file that was generated. -/
lemma release_cases (t : FileTree) (r : Resolved) : release t r = t ∨
    ∃ p l n, r.location = .generated p ∧ t.find p = .ok (l, n) ∧ n ≠ .directory ∧
      release t r = t.unset l := by
  cases r with
  | mk location warnings =>
    cases location with
    | project | explicit => exact .inl rfl
    | generated p =>
      cases hfind : t.find p with
      | error e =>
        left
        simp [release, FileTree.removeFile, hfind, bind, Except.bind, Except.toOption]
      | ok found =>
        obtain ⟨l, n⟩ := found
        by_cases hn : n = .directory
        · left
          simp [release, FileTree.removeFile, hfind, hn, bind, Except.bind, Except.toOption]
        · exact .inr ⟨p, l, n, rfl, hfind, hn, release_generated hfind hn warnings⟩

/-- Letting go of an option file leaves every path leading where it led. -/
lemma sameDirectories_release (t : FileTree) (r : Resolved) :
    FileTree.SameDirectories t (release t r) := by
  rcases release_cases t r with hsame | ⟨_, l, n, -, hfind, hn, hgone⟩
  · rw [hsame]
    exact .refl t
  · rw [hgone]
    refine FileTree.sameDirectories_unset ?_
    rw [(FileTree.find_eq_ok_iff.mp hfind).2]
    simpa using hn

/-- A file that was created and cannot be kept goes without a trace. -/
lemma release_created {p : Path} {l : SourceFormat.Location} {contents : Bytes}
    (hl : t.locate p = .ok l) (hn : t.node? l = none) (warnings : List Style.LossyConversion) :
    release (t.set l (.file contents false)) ⟨.generated p, warnings⟩ = t := by
  have hne : l ≠ [] := by
    rintro rfl
    simp at hn
  have hfind := FileTree.find_set (n := .file contents false) hl (by simp [hn]) (by simp)
  rw [release_generated hfind (by simp), FileTree.unset_set hne hn]

/-- What it takes to generate an option file: it can be created, there is room for its whole text,
and the system keeps it. -/
structure CanGenerate (t : FileTree) (temporary : Storage) (style : Style) : Prop where
  created : ∃ l, t.locate (generatedPath t temporary.directory) = .ok l ∧ l ∉ t.unwritable
  room : ∀ room, temporary.room = some room →
    (Utf8.encode style.exported.file.render).length ≤ room
  kept : temporary.sync = .ok ()

/-- A file can be opened for a generated option file exactly if its path leads somewhere that is not
locked; nothing is there then. -/
lemma writable_generatedPath_eq_ok_iff {temporary : Storage}
    {found : SourceFormat.Location × Option Node} :
    t.writable (generatedPath t temporary.directory) = .ok found ↔
      ∃ l, t.locate (generatedPath t temporary.directory) = .ok l ∧ l ∉ t.unwritable ∧
        t.node? l = none ∧ found = (l, none) := by
  have hvacant := FileTree.existsAt_eq_false_iff.mp (existsAt_generatedPath t temporary.directory)
  constructor
  · intro h
    obtain ⟨hl, hn, -, hopen⟩ := FileTree.locate_of_writable h
    refine ⟨found.1, hl, hopen, hvacant _ hl, ?_⟩
    rw [hvacant _ hl] at hn
    exact Prod.ext rfl hn.symm
  · rintro ⟨l, hl, hopen, hn, rfl⟩
    exact FileTree.writable_of_vacant (asksForDirectory_generatedPath t _) hl hn hopen

/-- An option file is generated if it can be; if not, nothing is left of the attempt. -/
theorem generate_cases (t : FileTree) (temporary : Storage) (style : Style) :
    (CanGenerate t temporary style ∧
      ∃ l, t.locate (generatedPath t temporary.directory) = .ok l ∧ t.node? l = none ∧
        generate t temporary style =
          (t.set l (.file (Utf8.encode style.exported.file.render) false),
            .ok ⟨.generated (generatedPath t temporary.directory), style.exported.warnings⟩)) ∨
    (¬ CanGenerate t temporary style ∧ ∃ e, generate t temporary style = (t, .error e)) := by
  cases hwritable : t.writable (generatedPath t temporary.directory) with
  | error e =>
    refine .inr ⟨fun h => ?_, _, by rw [generate, hwritable]⟩
    obtain ⟨l, hl, hopen⟩ := h.created
    have hn := FileTree.existsAt_eq_false_iff.mp (existsAt_generatedPath t _) l hl
    cases hwritable.symm.trans (writable_generatedPath_eq_ok_iff.mpr ⟨l, hl, hopen, hn, rfl⟩)
  | ok found =>
    obtain ⟨l, hl, hopen, hn, -⟩ := writable_generatedPath_eq_ok_iff.mp hwritable
    have hreceives : t.Receives (generatedPath t temporary.directory) l false :=
      .vacant (asksForDirectory_generatedPath t _) hl hn hopen
    have hkeeps := OptionFile.writeOut_eq_ok_iff temporary.toDisk style.exported.file
    simp only [generate, hwritable, OptionFile.save_of_receives hreceives]
    cases hanswer : (style.exported.file.writeOut temporary.toDisk).1 with
    | error e =>
      refine .inr ⟨fun h => ?_, ⟨e, none⟩, ?_⟩
      · cases hanswer.symm.trans (hkeeps.mpr ⟨h.room, h.kept⟩)
      · simp only [release_created hl hn]
    | ok =>
      have hkept := hkeeps.mp hanswer
      refine .inl ⟨⟨⟨l, hl, hopen⟩, hkept.room, hkept.sync⟩, l, hl, hn, ?_⟩
      simp only [OptionFile.held_of_writeOut hanswer]

/-- Every answer of `resolve` is one of these. -/
theorem resolves_resolve (t : FileTree) (temporary : Storage) (root : Option Path) (s : Settings)
    (style : Style) :
    Resolves t temporary root s style (resolve t temporary root s style) := by
  unfold resolve
  split
  · rename_i location hlocate
    exact .located hlocate (isGenerated_of_locate hlocate)
  · rename_i hlocate
    obtain ⟨-, l, hl, hn, hgenerate⟩ | ⟨-, e, hgenerate⟩ := generate_cases t temporary style
    · rw [hgenerate]
      exact .generated hlocate hl hn
    · rw [hgenerate]
      exact .failed hlocate e

/-- Where a file can be created, and the system takes all of it and keeps it, it is generated. -/
theorem resolve_eq_generated {temporary : Storage} {root : Option Path} {s : Settings}
    {style : Style} {l : SourceFormat.Location} (hlocate : locate t root s = none)
    (hl : t.locate (generatedPath t temporary.directory) = .ok l) (hopen : l ∉ t.unwritable)
    (hroom : temporary.room = none) (hsync : temporary.sync = .ok ()) :
    resolve t temporary root s style =
      (t.set l (.file (Utf8.encode style.exported.file.render) false),
        .ok ⟨.generated (generatedPath t temporary.directory), style.exported.warnings⟩) := by
  have hcan : CanGenerate t temporary style := ⟨⟨l, hl, hopen⟩, by simp [hroom], hsync⟩
  obtain ⟨-, k, hk, -, hgenerate⟩ | ⟨hcannot, -⟩ := generate_cases t temporary style
  · obtain rfl : l = k := Except.ok.inj (hl.symm.trans hk)
    rw [resolve, hlocate, ← hgenerate]
  · exact absurd hcan hcannot

section resolved

variable {t' : FileTree} {temporary : Storage} {root : Option Path} {s : Settings} {style : Style}

/-- A generated option file holds the text of the exported style. -/
lemma find_of_resolve_generated {p : Path} {warnings : List Style.LossyConversion}
    (h : resolve t temporary root s style = (t', .ok ⟨.generated p, warnings⟩)) :
    ∃ l, t'.find p = .ok (l, .file (Utf8.encode style.exported.file.render) false) := by
  have hresolves := resolves_resolve t temporary root s style
  rw [h] at hresolves
  cases hresolves with
  | located _ hkept => cases hkept
  | generated _ hl hn => exact ⟨_, FileTree.find_set hl (by simp [hn]) (by simp)⟩

/-- An option file is generated where nothing was. -/
lemma vacant_of_resolve_generated {p : Path} {warnings : List Style.LossyConversion}
    (h : resolve t temporary root s style = (t', .ok ⟨.generated p, warnings⟩)) :
    ∃ l, t.locate p = .ok l ∧ t.node? l = none := by
  have hresolves := resolves_resolve t temporary root s style
  rw [h] at hresolves
  cases hresolves with
  | located _ hkept => cases hkept
  | generated _ hl hn => exact ⟨_, hl, hn⟩

/-- Settling an option file leaves every path leading where it led. -/
lemma sameDirectories_of_resolve {answer : Except GenerateError Resolved}
    (h : resolve t temporary root s style = (t', answer)) : FileTree.SameDirectories t t' := by
  have hresolves := resolves_resolve t temporary root s style
  rw [h] at hresolves
  cases hresolves with
  | located | failed => exact .refl t
  | generated _ _ hn => exact FileTree.sameDirectories_set (by simp [hn]) (by simp)

/-- **A failure leaves nothing behind.** -/
lemma eq_of_resolve_error {e : GenerateError}
    (h : resolve t temporary root s style = (t', .error e)) : t' = t := by
  have hresolves := resolves_resolve t temporary root s style
  rw [h] at hresolves
  cases hresolves
  rfl

/-- Whatever is there stays as it is. -/
lemma node?_of_resolve {answer : Except GenerateError Resolved}
    (h : resolve t temporary root s style = (t', answer)) {l : SourceFormat.Location} {n : Node}
    (hn : t.node? l = some n) : t'.node? l = some n := by
  have hresolves := resolves_resolve t temporary root s style
  rw [h] at hresolves
  cases hresolves with
  | located | failed => exact hn
  | @generated k _ _ hvacant =>
    have hne : l ≠ k := by
      rintro rfl
      rw [hn] at hvacant
      cases hvacant
    rw [FileTree.node?_set_of_ne hne, hn]

end resolved

end Config

end SourceFormat
