import SourceFormat.Path

/-!
# What the formatter can format

A file is told by the extension of its name, which must be one of the formatter's with exactly its
case; a document that an editor has already assigned to a language is told by the language, whose
name counts up to the case of its ASCII letters.
-/

namespace SourceFormat

/-- The extensions that the formatter knows. -/
def supportedExtensions : List String :=
  ["c", "cpp", "d", "cs", "vala", "java", "pawn", "p", "sma", "inl", "h", "cxx", "hpp", "hxx",
   "cc", "cp", "C", "CPP", "c++", "di", "m", "mm", "sqc", "es"]

/-- The languages that the formatter knows, by their names in editors. -/
def supportedLanguages : List String :=
  ["C", "CPP", "D", "CS", "JAVA", "PAWN", "OC", "OC+", "VALA"]

/-- Whether the extension of a path is one of the formatter's.  An extension that is no text is
none of them. -/
def isExtensionSupported (p : Path) : Bool :=
  match p.extension? with
  | none => false
  | some extension => supportedExtensions.any fun e => Utf8.encode e = extension

/-- A text with its ASCII letters in lower case. -/
def foldCase (s : String) : List Char :=
  s.toList.map Char.toLower

/-- Whether a language is one of the formatter's. -/
def isLanguageSupported (language : String) : Bool :=
  supportedLanguages.any fun l => foldCase l = foldCase language

end SourceFormat
