import Mathlib
import SourceFormat.Proofs.Config.GeneratedFile

/-!
# Which option file is settled

The project's own option file comes before the one that the settings name, and that one before a
generated one.  A tier counts only if there is a regular file: a directory of the right name, a path
that leads nowhere and the empty path are passed over.

* `locate_eq_some_iff`, `locate_eq_none_iff`: what is found without generating anything.
* `resolve_eq_ok_iff`: what is settled, and what that leaves behind.
* `settled_by_tier`: the three tiers, and the failure that only the last of them can come to.
-/

namespace SourceFormat.Config

variable {t after : FileTree} {temporary : Storage} {root : Option Path} {s : Settings}
  {style : Style} {q : Path} {location : Location}

/-- The project's own option file: a root is given, and there is a regular file of the right name in
it. -/
structure ProjectFile (t : FileTree) (root : Option Path) (q : Path) : Prop where
  inRoot : ∃ r, root = some r ∧ q = r.join (Utf8.encode projectFileName)
  isFile : t.isFile q = true

/-- The option file that the settings name: they name one, and there is a regular file. -/
structure NamedFile (t : FileTree) (s : Settings) (q : Path) : Prop where
  named : s.config = some q
  nonempty : q.isEmpty = false
  isFile : t.isFile q = true

/-! ## What is found -/

/-- The first tier is the project file under the root, if it is a file. -/
lemma locateProject_eq_some_iff :
    locateProject t root = some location ↔ ∃ q, location = .project q ∧ ProjectFile t root q := by
  simp only [locateProject, Option.bind_eq_some_iff, Option.ite_none_right_eq_some,
    Option.some.injEq]
  constructor
  · rintro ⟨r, hroot, hfile, rfl⟩
    exact ⟨_, rfl, ⟨r, hroot, rfl⟩, hfile⟩
  · rintro ⟨q, rfl, ⟨r, hroot, rfl⟩, hfile⟩
    exact ⟨r, hroot, hfile, rfl⟩

/-- The second tier is the file that the settings name, if they do and it is a file. -/
lemma locateExplicit_eq_some_iff :
    locateExplicit t s = some location ↔ ∃ q, location = .explicit q ∧ NamedFile t s q := by
  simp only [locateExplicit, Option.bind_eq_some_iff, Option.ite_none_right_eq_some,
    Option.some.injEq, Bool.and_eq_true, Bool.not_eq_true']
  constructor
  · rintro ⟨q, hnamed, ⟨hnonempty, hfile⟩, rfl⟩
    exact ⟨q, rfl, hnamed, hnonempty, hfile⟩
  · rintro ⟨q, rfl, h⟩
    exact ⟨q, h.named, ⟨h.nonempty, h.isFile⟩, rfl⟩

/-- The first tier is passed over exactly without a project file. -/
lemma locateProject_eq_none_iff :
    locateProject t root = none ↔ ∀ q, ¬ ProjectFile t root q := by
  rw [Option.eq_none_iff_forall_ne_some]
  constructor
  · exact fun h q hq => h _ (locateProject_eq_some_iff.mpr ⟨q, rfl, hq⟩)
  · intro h location hlocation
    obtain ⟨q, -, hq⟩ := locateProject_eq_some_iff.mp hlocation
    exact h q hq

/-- What is found without generating anything. -/
theorem locate_eq_some_iff : locate t root s = some location ↔
    (∃ q, location = .project q ∧ ProjectFile t root q) ∨
      (∀ q, ¬ ProjectFile t root q) ∧ ∃ q, location = .explicit q ∧ NamedFile t s q := by
  rw [locate, Option.orElse_eq_or, Option.or_eq_some_iff,
    locateProject_eq_some_iff, locateProject_eq_none_iff, locateExplicit_eq_some_iff]

/-- Nothing is found exactly if both files are missing. -/
theorem locate_eq_none_iff : locate t root s = none ↔
    (∀ q, ¬ ProjectFile t root q) ∧ ∀ q, ¬ NamedFile t s q := by
  rw [Option.eq_none_iff_forall_ne_some]
  constructor
  · intro h
    have hproject : ∀ q, ¬ ProjectFile t root q := fun q hq =>
      h _ (locate_eq_some_iff.mpr (.inl ⟨q, rfl, hq⟩))
    exact ⟨hproject, fun q hq => h _ (locate_eq_some_iff.mpr (.inr ⟨hproject, q, rfl, hq⟩))⟩
  · rintro ⟨hproject, hnamed⟩ location hlocation
    obtain ⟨q, -, hq⟩ | ⟨-, q, -, hq⟩ := locate_eq_some_iff.mp hlocation
    · exact hproject q hq
    · exact hnamed q hq

/-! ## What is settled -/

/-- What is located is the answer: nothing is written, and nothing reported. -/
lemma resolve_of_locate (h : locate t root s = some location) :
    resolve t temporary root s style = (t, .ok ⟨location, []⟩) := by
  rw [resolve, h]

/-- Where nothing is located a file is generated. -/
lemma resolve_of_locate_none (h : locate t root s = none) :
    resolve t temporary root s style = generate t temporary style := by
  rw [resolve, h]

/-- What is settled, and what that leaves behind. -/
theorem resolve_eq_ok_iff {r : Resolved} : resolve t temporary root s style = (after, .ok r) ↔
    (locate t root s = some r.location ∧ r.warnings = [] ∧ after = t) ∨
    (locate t root s = none ∧ CanGenerate t temporary style ∧
      r.location = .generated (generatedPath t temporary.directory) ∧
      r.warnings = style.exported.warnings ∧
      ∃ l, t.locate (generatedPath t temporary.directory) = .ok l ∧ t.node? l = none ∧
        after = t.set l (.file (Utf8.encode style.exported.file.render) false)) := by
  obtain ⟨location, warnings⟩ := r
  cases hlocate : locate t root s with
  | some found =>
    rw [resolve_of_locate hlocate]
    constructor
    · intro h
      cases h
      exact .inl ⟨rfl, rfl, rfl⟩
    · rintro (⟨hfound, rfl, rfl⟩ | ⟨hnone, -⟩)
      · cases hfound
        rfl
      · cases hnone
  | none =>
    rw [resolve_of_locate_none hlocate]
    obtain ⟨hcan, l, hl, hn, hgenerate⟩ | ⟨hcannot, e, hgenerate⟩ :=
      generate_cases t temporary style
    · rw [hgenerate]
      constructor
      · intro h
        cases h
        exact .inr ⟨rfl, hcan, rfl, rfl, l, hl, hn, rfl⟩
      · rintro (⟨hsome, -⟩ | ⟨-, -, rfl, rfl, k, hk, -, rfl⟩)
        · cases hsome
        · rw [Except.ok.inj (hl.symm.trans hk)]
    · rw [hgenerate]
      refine iff_of_false (fun h => by cases h) ?_
      rintro (⟨hsome, -⟩ | ⟨-, hcan, -⟩)
      · cases hsome
      · exact hcannot hcan

/-- Whether some option file is settled. -/
lemma exists_resolve_iff :
    (∃ after warnings, resolve t temporary root s style = (after, .ok ⟨location, warnings⟩)) ↔
      locate t root s = some location ∨
      (locate t root s = none ∧ CanGenerate t temporary style ∧
        location = .generated (generatedPath t temporary.directory)) := by
  constructor
  · rintro ⟨after, warnings, h⟩
    obtain ⟨hlocate, -⟩ | ⟨hlocate, hcan, hlocation, -⟩ := resolve_eq_ok_iff.mp h
    · exact .inl hlocate
    · exact .inr ⟨hlocate, hcan, hlocation⟩
  · rintro (hlocate | ⟨hlocate, hcan, rfl⟩)
    · exact ⟨t, [], resolve_of_locate hlocate⟩
    · rw [resolve_of_locate_none hlocate]
      obtain ⟨-, l, -, -, hgenerate⟩ | ⟨hcannot, -⟩ := generate_cases t temporary style
      · exact ⟨_, _, hgenerate⟩
      · exact absurd hcan hcannot

/-- What it means that nothing is settled, and that it leaves nothing behind. -/
theorem resolve_eq_error_iff : (∃ e, resolve t temporary root s style = (after, .error e)) ↔
    locate t root s = none ∧ ¬ CanGenerate t temporary style ∧ after = t := by
  cases hlocate : locate t root s with
  | some found =>
    rw [resolve_of_locate hlocate]
    exact iff_of_false (fun ⟨_, h⟩ => by cases h) nofun
  | none =>
    rw [resolve_of_locate_none hlocate]
    obtain ⟨hcan, l, -, -, hgenerate⟩ | ⟨hcannot, e, hgenerate⟩ :=
      generate_cases t temporary style
    · rw [hgenerate]
      exact iff_of_false (fun ⟨_, h⟩ => by cases h) fun h => h.2.1 hcan
    · rw [hgenerate]
      constructor
      · rintro ⟨_, h⟩
        cases h
        exact ⟨rfl, hcannot, rfl⟩
      · rintro ⟨-, -, rfl⟩
        exact ⟨e, rfl⟩

/-- **The option file is settled tier by tier.**  Whatever files there are, and whatever root,
settings and style are given:

* The project's own option file is settled exactly if there is one; the one that the settings name,
  exactly if there is one and no project's; and a generated one exactly if there is neither and it
  can be generated.
* If there is neither and none can be generated, and only then, settling fails, and no file has
  changed.
* A file that was there is the one that is found without generating any; it comes without warnings,
  no file has changed, and no other style and no other place for temporary files would have made a
  difference.
* A generated file is none that is found otherwise.  Nothing was at its path before; it holds the
  text of the exported style, comes with the warnings of the export, and no other file has changed.
-/
theorem settled_by_tier (t : FileTree) (temporary : Storage) (root : Option Path) (s : Settings)
    (style : Style) :
    (∀ q, (∃ after warnings,
        resolve t temporary root s style = (after, .ok ⟨.project q, warnings⟩)) ↔
      ProjectFile t root q) ∧
    (∀ q, (∃ after warnings,
        resolve t temporary root s style = (after, .ok ⟨.explicit q, warnings⟩)) ↔
      (∀ q', ¬ ProjectFile t root q') ∧ NamedFile t s q) ∧
    (∀ q, (∃ after warnings,
        resolve t temporary root s style = (after, .ok ⟨.generated q, warnings⟩)) ↔
      (∀ q', ¬ ProjectFile t root q') ∧ (∀ q', ¬ NamedFile t s q') ∧
        CanGenerate t temporary style ∧ q = generatedPath t temporary.directory) ∧
    (∀ after, (∃ e, resolve t temporary root s style = (after, .error e)) ↔
      (∀ q', ¬ ProjectFile t root q') ∧ (∀ q', ¬ NamedFile t s q') ∧
        ¬ CanGenerate t temporary style ∧ after = t) ∧
    (∀ after r, resolve t temporary root s style = (after, .ok r) →
      if r.location.isGenerated then
        locate t root s = none ∧ r.warnings = style.exported.warnings ∧
          t.existsAt r.location.path = false ∧
          after.contents r.location.path = .ok (Utf8.encode style.exported.file.render) ∧
          ∃ l, t.locate r.location.path = .ok l ∧
            after = t.set l (.file (Utf8.encode style.exported.file.render) false)
      else
        locate t root s = some r.location ∧ r.warnings = [] ∧ after = t ∧
          ∀ temporary' style', resolve t temporary' root s style' = (t, .ok r)) := by
  refine ⟨fun q => ?project, fun q => ?explicit, fun q => ?generated, fun after => ?failed,
    fun after r h => ?left⟩
  case project =>
    rw [exists_resolve_iff, locate_eq_some_iff]
    simp
  case explicit =>
    rw [exists_resolve_iff, locate_eq_some_iff]
    simp
  case generated =>
    rw [exists_resolve_iff, locate_eq_some_iff, locate_eq_none_iff]
    simp [and_assoc]
  case failed => rw [resolve_eq_error_iff, locate_eq_none_iff, and_assoc]
  case left =>
    obtain ⟨location, warnings⟩ := r
    obtain ⟨hlocate, rfl, rfl⟩ | ⟨hlocate, -, rfl, rfl, l, hl, hn, rfl⟩ := resolve_eq_ok_iff.mp h
    · rw [if_neg (by simpa using isGenerated_of_locate hlocate)]
      exact ⟨hlocate, rfl, rfl, fun _ _ => resolve_of_locate hlocate⟩
    · have hgenerated :
          (Location.generated (generatedPath t temporary.directory)).isGenerated = true := rfl
      rw [if_pos hgenerated]
      have hfind := FileTree.find_set
        (n := .file (Utf8.encode style.exported.file.render) false) hl (by simp [hn]) nofun
      exact ⟨hlocate, rfl, existsAt_generatedPath t _, FileTree.contents_eq_ok hfind, l, hl, rfl⟩

/-- A directory of the right name is passed over for the file that the settings name. -/
example :
    resolve
      { nodes := [([Utf8.encode "uncrustify.cfg"], .directory), ([[0x6F]], .file [] false)] }
      (Path.ofString "/tmp") (some (Path.ofString "/")) { config := some (Path.ofString "o") } {} =
    ({ nodes := [([Utf8.encode "uncrustify.cfg"], .directory), ([[0x6F]], .file [] false)] },
      .ok ⟨.explicit (Path.ofString "o"), []⟩) := by
  rfl

end SourceFormat.Config
