import Mathlib
import SourceFormat.Proofs.Cli.SourceKept
import SourceFormat.Proofs.Config.GeneratedFile
import SourceFormat.Proofs.Files.Parent

/-!
# The directory that is searched by default

A formatting command without a project root searches the directory part of the file's path.  However
the path is spelled, that is the directory that the file is in, and so the command settles the same
option file as one that names the directory.

There is one exception.  A bare name has no directory part, and then no directory is searched at
all: an option file beside the file is passed over, although `./` before the name would find it.
`default_root_iff` says exactly when it makes a difference.
-/

namespace SourceFormat

open FileTree

namespace Config

/-- The tiers, in the order in which they count. -/
inductive Tier where
  | project
  | explicit
  | generated
  deriving Repr, DecidableEq

/-- The tier of an option file. -/
def Location.tier : Location → Tier
  | .project _ => .project
  | .explicit _ => .explicit
  | .generated _ => .generated

/-- The option file that is settled: its tier, and what is in it. -/
def chosen (t : FileTree) (temporary : Storage) (root : Option Path) (s : Settings) (style : Style) :
    Except GenerateError (Tier × Except SystemError Bytes) :=
  let (after, answer) := resolve t temporary root s style
  answer.map fun r => (r.location.tier, after.contents r.location.path)

variable {t : FileTree} {temporary : Storage} {root : Option Path} {s : Settings} {style : Style}
  {d e : Path} {m : SourceFormat.Location}

/-- The path of a project's option file. -/
def candidate (root : Path) : Path := root.join (Utf8.encode projectFileName)

/-- Under a root with a project file, the project file is chosen. -/
lemma chosen_of_isFile (h : t.isFile (candidate d) = true) :
    chosen t temporary (some d) s style = .ok (.project, t.contents (candidate d)) := by
  have hproject : locateProject t (some d) = some (.project (candidate d)) := if_pos h
  rw [chosen, resolve, locate, hproject]
  rfl

/-- A root without a project file is like no root. -/
lemma chosen_of_not_isFile (h : t.isFile (candidate d) = false) :
    chosen t temporary (some d) s style = chosen t temporary none s style := by
  have hproject : locateProject t (some d) = none := if_neg (by rw [← candidate, h]; simp)
  rw [chosen, resolve, locate, hproject]
  rfl

/-- Without a root only the file of the settings can be located. -/
lemma tier_of_locate_none {location : Location} (h : locate t none s = some location) :
    location.tier = .explicit := by
  have hexplicit : locateExplicit t s = some location := h
  obtain ⟨p, -, hp⟩ := Option.bind_eq_some_iff.mp hexplicit
  split at hp <;> cases hp
  rfl

/-- Without a root no project's option file is settled. -/
lemma chosen_none_ne (contents : Except SystemError Bytes) :
    chosen t temporary none s style ≠ .ok (.project, contents) := by
  have hresolves := resolves_resolve t temporary none s style
  unfold chosen
  generalize resolve t temporary none s style = settled at hresolves ⊢
  cases hresolves with
  | located h =>
    intro heq
    have htier := tier_of_locate_none h
    rw [(Prod.mk.inj (Except.ok.inj heq)).1] at htier
    cases htier
  | generated | failed => simp [Except.map, Location.tier]

/-- The name of a project's option file is one that every directory can hold. -/
lemma isName_projectFileName : Path.IsName (Utf8.encode projectFileName) := by
  constructor <;> decide

/-- The project file is looked for in the directory that the root leads to. -/
lemma locate_candidate (hd : t.locate d = .ok m) (hm : t.node? m = some .directory)
    (hshort : (candidate d).bytes.length < maxPathLength) :
    t.locate (candidate d) = .ok (m ++ [Utf8.encode projectFileName]) :=
  locate_join hd hm isName_projectFileName (by decide) (by decide) hshort

/-- However a directory is spelled, the same option file is settled in it. -/
theorem chosen_congr (hd : t.locate d = .ok m) (he : t.locate e = .ok m)
    (hm : t.node? m = some .directory) (hshort : (candidate d).bytes.length < maxPathLength)
    (hshort' : (candidate e).bytes.length < maxPathLength) :
    chosen t temporary (some d) s style = chosen t temporary (some e) s style := by
  have hfind : t.find (candidate d) = t.find (candidate e) := by
    rw [find, find, locate_candidate hd hm hshort, locate_candidate he hm hshort']
  have hfile : t.isFile (candidate d) = t.isFile (candidate e) := by rw [isFile, isFile, hfind]
  cases h : t.isFile (candidate e) with
  | true =>
    rw [chosen_of_isFile (hfile.trans h), chosen_of_isFile h, FileTree.contents, FileTree.contents, hfind]
  | false => rw [chosen_of_not_isFile (hfile.trans h), chosen_of_not_isFile h]

end Config

namespace Cli

open Config (Storage)

/-- The option file that a formatting command settles, if it comes to that. -/
def FormatCommand.chosen (c : FormatCommand) (t : FileTree) (temporary : Storage) :
    Except Failure (Except Config.GenerateError (Config.Tier × Except SystemError Bytes)) :=
  (prepare t c).map fun p =>
    Config.chosen t temporary p.request.projectRoot p.settings p.style

variable {t : FileTree} {temporary : Storage} {c : FormatCommand} {p : Prepared} {d : Path}
  {l : Location}

/-- What is prepared comes from the settings, the style and the file, each of which has been
read. -/
lemma prepare_eq_ok_iff : prepare t c = .ok p ↔ ∃ s, loadSettings t c.settings = .ok s ∧
    loadStyle t c.style = .ok p.style ∧
    p.settings = { s with executable := c.executable.getD s.executable } ∧
    ineligible? p.settings c = none ∧
    ∃ text, t.readText c.file = .ok text ∧
      p.request = { fileName := c.file, text, projectRoot := rootOf c } := by
  unfold prepare
  cases loadSettings t c.settings with
  | error f => simp [bind, Except.bind]
  | ok s =>
    cases loadStyle t c.style with
    | error f => simp [bind, Except.bind]
    | ok style =>
      simp only [bind, Except.bind, Except.ok.injEq, exists_eq_left']
      cases c.executable <;> dsimp only [Option.getD] <;> constructor
      case none.mp | some.mp =>
        intro h
        split at h
        · cases h
        · rename_i heligible
          split at h
          · cases h
          · rename_i text htext
            cases h
            exact ⟨rfl, rfl, heligible, text, htext, rfl⟩
      case some.mpr =>
        rintro ⟨rfl, hsettings, heligible, text, htext, hrequest⟩
        rw [← hsettings, heligible, htext]
        simp only [← hrequest]
      case none.mpr =>
        rintro ⟨rfl, (hsettings : p.settings = s), heligible, text, htext, hrequest⟩
        rw [← hsettings, heligible, htext]
        simp only [← hrequest]

/-- The root counts for nothing but the request. -/
lemma prepare_projectRoot (hp : prepare t c = .ok p) (root : Option Path) :
    prepare t { c with projectRoot := root } =
      .ok { p with request := { p.request with
        projectRoot := rootOf { c with projectRoot := root } } } := by
  obtain ⟨s, hsettings, hstyle, hlaunch, heligible, text, htext, hrequest⟩ :=
    prepare_eq_ok_iff.mp hp
  exact prepare_eq_ok_iff.mpr ⟨s, hsettings, hstyle, hlaunch, heligible, text, htext,
    by rw [hrequest]⟩

/-- What the command chooses depends on the root that is given to it alone, once it is prepared. -/
lemma chosen_eq (temporary : Storage) (hp : prepare t c = .ok p) (root : Option Path) :
    FormatCommand.chosen { c with projectRoot := root } t temporary =
      .ok (Config.chosen t temporary (rootOf { c with projectRoot := root }) p.settings p.style) := by
  rw [FormatCommand.chosen, prepare_projectRoot hp]
  rfl

/-- Without a root of its own, a file under a directory has that directory for a root. -/
lemma rootOf_of_slash {q : Path} (hroot : c.projectRoot = none) (hq : c.file.parent? = some q)
    (hne : q.bytes ≠ []) : rootOf c = some q := by
  rw [rootOf, hroot, hq]
  simp [Path.isEmpty, hne]

/-- Without a root of its own, a bare name has none. -/
lemma rootOf_of_bare (hroot : c.projectRoot = none) (hname : Path.IsName c.file.bytes) :
    rootOf c = none := by
  rw [rootOf, hroot, Path.parent?_of_bare hname]
  rfl

/-- The file of a command that gets to the formatter is not a directory. -/
lemma exists_node_of_prepare (hp : prepare t c = .ok p) (hl : t.locate c.file = .ok l) :
    ∃ n, t.node? l = some n ∧ n ≠ .directory := by
  obtain ⟨contents, hread, -⟩ := readText_eq_ok_iff.mp (ready_of_prepare hp).text
  obtain ⟨k, n, hfind, hcontents⟩ := find_of_read hread
  obtain ⟨hk, hn⟩ := find_eq_ok_iff.mp hfind
  obtain rfl := Except.ok.inj (hl.symm.trans hk)
  refine ⟨n, hn, ?_⟩
  rintro rfl
  cases hcontents

/-- **The file's own directory is searched by default, unless the file is a bare name.** A command
without a project root settles an option file of the same tier with the same contents as one that
names the directory of its file, whenever the file's path has a directory part, and otherwise
exactly if there is no option file in that directory. -/
theorem default_root_iff (ht : t.IsTree) (hroot : c.projectRoot = none) (hp : prepare t c = .ok p)
    (hl : t.locate c.file = .ok l) (hd : t.locate d = .ok l.dropLast)
    (hshort : ∀ root, root = d ∨ rootOf c = some root →
      (Config.candidate root).bytes.length < maxPathLength) :
    c.chosen t temporary = FormatCommand.chosen { c with projectRoot := some d } t temporary ↔
      Path.slash ∈ c.file.bytes ∨ t.isFile (Config.candidate d) = false := by
  obtain ⟨n, hn, hfile⟩ := exists_node_of_prepare hp hl
  have hdirectory := ht l n hn
  have hdefault : c.chosen t temporary =
      .ok (Config.chosen t temporary (rootOf c) p.settings p.style) :=
    chosen_eq temporary hp c.projectRoot
  have hnamed : FormatCommand.chosen { c with projectRoot := some d } t temporary =
      .ok (Config.chosen t temporary (some d) p.settings p.style) := chosen_eq temporary hp (some d)
  rw [hdefault, hnamed, Except.ok.injEq]
  by_cases hslash : Path.slash ∈ c.file.bytes
  · obtain ⟨q, hq, hlq⟩ := locate_parent? ht hslash hl hn hfile
    have hrootq := rootOf_of_slash hroot hq (locate_eq_ok.mp hlq).2.1
    rw [hrootq]
    refine iff_of_true ?_ (.inl hslash)
    exact Config.chosen_congr hlq hd hdirectory (hshort q (.inr hrootq)) (hshort d (.inl rfl))
  · have hname : Path.IsName c.file.bytes := by
      have hwalk := (locate_eq_ok.mp hl).2.2.2
      rw [Path.cut_of_notMem hslash, ← List.nil_append [c.file.bytes]] at hwalk
      exact (exists_name_of_walk ht hslash hwalk hn hfile).1
    rw [rootOf_of_bare hroot hname]
    cases hconfig : t.isFile (Config.candidate d) with
    | false => exact iff_of_true (Config.chosen_of_not_isFile hconfig).symm (.inr rfl)
    | true =>
      rw [Config.chosen_of_isFile hconfig]
      exact iff_of_false (Config.chosen_none_ne _) (by simp [hslash])

/-- A source file with an option file beside it. -/
def besides : FileTree where
  nodes := [([[0x77]], .directory), ([[0x77], Utf8.encode "main.c"], .file (Utf8.encode "int x;") false),
    ([[0x77], Utf8.encode "uncrustify.cfg"], .file [] false)]
  workingDirectory := [[0x77]]

/-- With the directory spelled out, the option file is found. -/
theorem default_root_iff_spelledOut :
    FormatCommand.chosen { file := Path.ofString "./main.c" } besides (Path.ofString "/tmp") =
      FormatCommand.chosen
        { file := Path.ofString "./main.c", projectRoot := some (Path.ofString "/w/") } besides
        (Path.ofString "/tmp") := by
  have ht : besides.IsTree := isTree_of_nodes (by decide)
  have hl : besides.locate (Path.ofString "./main.c") =
      .ok [[0x77], Utf8.encode "main.c"] := by decide
  have hd : besides.locate (Path.ofString "/w/") = .ok [[0x77]] := by decide
  have hp : prepare besides { file := Path.ofString "./main.c" } = .ok
      { settings := {}, style := {}
        request := {
          fileName := Path.ofString "./main.c", text := "int x;"
          projectRoot := some (Path.ofString ".") } } := by
    decide +kernel
  refine (default_root_iff ht rfl hp hl hd ?_).mpr (.inl (by decide))
  rintro root (rfl | hroot)
  · decide
  · have hhere : rootOf { file := Path.ofString "./main.c" } = some (Path.ofString ".") := by decide
    rw [hhere] at hroot
    cases hroot
    decide

/-- A bare name passes over the option file that is beside the file. -/
theorem bare_name_passes_over :
    besides.locate (Path.ofString "main.c") = .ok [[0x77], Utf8.encode "main.c"] ∧
      besides.locate (Path.ofString ".") = .ok [[0x77]] ∧
      FormatCommand.chosen { file := Path.ofString "main.c" } besides (Path.ofString "/tmp") ≠
        FormatCommand.chosen
          { file := Path.ofString "main.c", projectRoot := some (Path.ofString ".") } besides
          (Path.ofString "/tmp") ∧
      FormatCommand.chosen { file := Path.ofString "main.c" } besides (Path.ofString "/tmp") ≠
        FormatCommand.chosen { file := Path.ofString "./main.c" } besides (Path.ofString "/tmp") := by
  have hp : ∀ name ∈ ["main.c", "./main.c"],
      prepare besides { file := Path.ofString name } = .ok
        { settings := {}, style := {}
          request := {
            fileName := Path.ofString name, text := "int x;"
            projectRoot := rootOf { file := Path.ofString name } } } := by
    decide +kernel
  have hbare := chosen_eq (Path.ofString "/tmp") (hp "main.c" (by simp)) none
  have hnamed := chosen_eq (Path.ofString "/tmp") (hp "main.c" (by simp))
    (some (Path.ofString "."))
  have hspelled := chosen_eq (Path.ofString "/tmp") (hp "./main.c" (by simp)) none
  have hnone : rootOf { file := Path.ofString "main.c" } = none := by decide
  have hhere : rootOf { file := Path.ofString "./main.c" } = some (Path.ofString ".") := by decide
  have hfound : besides.isFile (Config.candidate (Path.ofString ".")) = true := by decide
  rw [hnone] at hbare
  rw [hhere, Config.chosen_of_isFile hfound] at hspelled
  have hgiven : rootOf { file := Path.ofString "main.c", projectRoot := some (Path.ofString ".") } =
      some (Path.ofString ".") := rfl
  rw [hgiven, Config.chosen_of_isFile hfound] at hnamed
  refine ⟨by decide, by decide, ?_, ?_⟩
  · rw [hbare, hnamed]
    exact fun h => Config.chosen_none_ne _ (Except.ok.inj h)
  · rw [hbare, hspelled]
    exact fun h => Config.chosen_none_ne _ (Except.ok.inj h)

end Cli

end SourceFormat
