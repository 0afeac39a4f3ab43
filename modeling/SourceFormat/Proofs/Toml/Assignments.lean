import Mathlib
import SourceFormat.Proofs.Toml.Strings
import SourceFormat.Toml.Document
import SourceFormat.Toml.Reading

/-!
# Documents of assignments

A document that has one line per setting, each of them a key without quotes and a scalar, is read as
exactly those keys with those scalars, in their order (`parse?_assignments`).  Strings, truth values
and natural numbers are what such a line is written with (`spells_string`, `spells_boolean`,
`spells_natural`).  A reader of fields takes the keys in another order, but there is only one that it
can take them in (`inKeyOrder_eq`).
-/

namespace SourceFormat.Toml

/-! ## Scalars -/

/-- A text is read as a scalar, where a line ends behind it. -/
def Spells (text : List Char) (x : Scalar) : Prop :=
  ∀ rest, dropSpace (text ++ '\n' :: rest) = text ++ '\n' :: rest ∧
    ∃ span, value? maxDepth (text ++ '\n' :: rest) = some (.scalar span x, '\n' :: rest)

/-- Behind a quote a value is a string. -/
lemma value?_of_quote {depth : Nat} {c : Char} (hc : c = '"' ∨ c = '\'') (p : Place) :
    value? depth (c :: p) = (string? (c :: p)).map fun (text, behind) =>
      (.scalar ⟨c :: p, behind⟩ (.string (String.ofList text)), behind) := by
  unfold value?
  rcases hc with rfl | rfl <;> rfl

/-- In every form a string begins with a quote. -/
lemma exists_quote (form : StringForm) (cs : List Char) :
    ∃ c p, (c = '"' ∨ c = '\'') ∧ form.write cs = c :: p := by
  cases form with
  | basic | basicLines => exact ⟨'"', _, .inl rfl, rfl⟩
  | literal | literalLines => exact ⟨'\'', _, .inr rfl, rfl⟩

/-- A string is read as it was written. -/
lemma spells_string (s : String) : Spells (writeString s).toList (.string s) := by
  intro rest
  have hread : string? ((StringForm.choose s.toList).write s.toList ++ '\n' :: rest)
      = some (s.toList, '\n' :: rest) := string?_write s.toList (by simp) (by simp)
  obtain ⟨c, p, hc, hp⟩ := exists_quote (StringForm.choose s.toList) s.toList
  rw [writeString, String.toList_ofList, hp]
  rw [hp] at hread
  refine ⟨?_, ?_⟩
  · rcases hc with rfl | rfl <;> rfl
  · rw [List.cons_append] at hread ⊢
    refine ⟨⟨c :: (p ++ '\n' :: rest), '\n' :: rest⟩, ?_⟩
    simp only [value?_of_quote hc, hread, Option.map_some, String.ofList_toList]

/-- A text of token characters, the first of them a letter or a digit, is read as a token. -/
lemma spells_of_token {c : Char} {cs : List Char} {x : Scalar} (hc : c.isAlphanum = true)
    (hcs : ∀ d ∈ cs, isTokenChar d = true) (h : scalar? (c :: cs) = some x) :
    Spells (c :: cs) x := by
  intro rest
  have hall : ∀ d ∈ c :: cs, isTokenChar d = true := by
    have hfirst : isTokenChar c = true := by simp [isTokenChar, hc]
    exact List.forall_mem_cons.mpr ⟨hfirst, hcs⟩
  have htoken : token (c :: cs ++ '\n' :: rest) = (c :: cs, '\n' :: rest) := by
    unfold token
    rw [List.takeWhile_append_of_pos hall, List.dropWhile_append_of_pos hall]
    simp [isTokenChar]
  rw [List.cons_append] at htoken ⊢
  have hne : ∀ d : Char, d.isAlphanum = false → c ≠ d := by
    rintro d hd rfl
    simp [hc] at hd
  refine ⟨?_, ?_⟩
  · have hspace : isSpace c = false := by
      simp [isSpace, hne ' ' rfl, hne '\t' rfl]
    rw [dropSpace, List.dropWhile_cons_of_neg (by simp [hspace])]
  · refine ⟨⟨c :: (cs ++ '\n' :: rest), '\n' :: rest⟩, ?_⟩
    unfold value?
    split <;> rename_i heq
    · cases heq
    · exact absurd (List.cons.inj heq).1 (hne '[' rfl)
    · exact absurd (List.cons.inj heq).1 (hne '\x7b' rfl)
    · obtain ⟨rfl, -⟩ := List.cons.inj heq
      simp only [hne '"' rfl, hne '\'' rfl, or_self, if_false, htoken, h, Option.map_some]

/-- A truth value is read as it was written. -/
lemma spells_boolean (b : Bool) :
    Spells (if b then "true" else "false").toList (.boolean b) := by
  have htrue : "true".toList = ['t', 'r', 'u', 'e'] := by rfl
  have hfalse : "false".toList = ['f', 'a', 'l', 's', 'e'] := by rfl
  cases b with
  | true =>
    rw [if_pos rfl, htrue]
    refine spells_of_token rfl (by simp [isTokenChar]) ?_
    rw [scalar?, if_pos htrue.symm]
  | false =>
    rw [if_neg (by decide), hfalse]
    refine spells_of_token rfl (by simp [isTokenChar]) ?_
    rw [scalar?, htrue, if_neg (by decide), if_pos hfalse.symm]

/-! ## Numbers -/

/-- A digit lies between zero and nine. -/
lemma bounds_of_isDigit {c : Char} (h : c.isDigit = true) : '0' ≤ c ∧ c ≤ '9' := by
  rw [Char.isDigit, Bool.and_eq_true, decide_eq_true_eq, decide_eq_true_eq] at h
  exact h

/-- A digit is a decimal one. -/
lemma isDecimal_of_isDigit {c : Char} (h : c.isDigit = true) : isDecimal c = true := by
  simpa [isDecimal] using bounds_of_isDigit h

/-- A digit has its value among the hexadecimal ones too. -/
lemma hexValue?_of_isDigit {c : Char} (h : c.isDigit = true) :
    hexValue? c = some (c.toNat - '0'.toNat) := by
  rw [hexValue?, if_pos (bounds_of_isDigit h)]

/-- Decimal notation consists of digits. -/
lemma isDigit_of_mem_toDigits (n : Nat) : ∀ c ∈ Nat.toDigits 10 n, c.isDigit = true :=
  fun _ hc => Nat.isDigit_of_mem_toDigits (by omega) (by omega) hc

/-- What is no digit does not stand in decimal notation. -/
lemma notMem_toDigits {n : Nat} {c : Char} (hc : c.isDigit = false) : c ∉ Nat.toDigits 10 n := by
  intro hmem
  rw [isDigit_of_mem_toDigits n c hmem] at hc
  cases hc

/-- No number is written with a leading zero. -/
lemma head?_toDigits {n : Nat} (h : 0 < n) : (Nat.toDigits 10 n).head? ≠ some '0' := by
  induction n using Nat.strong_induction_on with
  | _ n ih =>
    rcases Nat.lt_or_ge n 10 with hn | hn
    · rw [Nat.toDigits_of_lt_base hn]
      interval_cases n <;> decide
    · rw [Nat.toDigits_of_base_le (by omega) hn, List.head?_append_of_ne_nil _ Nat.toDigits_ne_nil]
      exact ih (n / 10) (by omega) (by omega)

/-- Digits without underscores are one group. -/
lemma digitGroups?_of_isDigit {cs : List Char} (hne : cs ≠ []) (h : ∀ c ∈ cs, c.isDigit = true) :
    digitGroups? isDecimal cs = some cs := by
  induction cs with
  | nil => exact absurd rfl hne
  | cons c cs ih =>
    obtain ⟨hc, hcs⟩ := List.forall_mem_cons.mp h
    cases cs with
    | nil => simp [digitGroups?, isDecimal_of_isDigit hc]
    | cons d cs =>
      have hd : d ≠ '_' := by
        rintro rfl
        cases hcs '_' List.mem_cons_self
      rw [digitGroups?, if_pos (isDecimal_of_isDigit hc), ih (List.cons_ne_nil d cs) hcs]
      · rfl
      · exact List.cons_ne_nil d cs
      · intro rest h
        exact hd (List.cons.inj h).1

/-- The value of decimal digits is the same to both readers. -/
lemma ofDigits_eq_ofDigitChars {cs : List Char} (h : ∀ c ∈ cs, c.isDigit = true) (n : Nat) :
    cs.foldl (fun n c => n * 10 + (hexValue? c).getD 0) n = Nat.ofDigitChars 10 cs n := by
  induction cs generalizing n with
  | nil => rfl
  | cons c cs ih =>
    obtain ⟨hc, hcs⟩ := List.forall_mem_cons.mp h
    rw [List.foldl_cons, Nat.ofDigitChars_cons, ih hcs, hexValue?_of_isDigit hc, Nat.mul_comm n 10]
    rfl

/-- Decimal notation is a whole part: it begins with zero for zero only. -/
lemma wholePart?_toDigits (n : Nat) :
    wholePart? (Nat.toDigits 10 n) = some (Nat.toDigits 10 n) := by
  have hdigits : digitGroups? isDecimal (Nat.toDigits 10 n) = some (Nat.toDigits 10 n) :=
    digitGroups?_of_isDigit Nat.toDigits_ne_nil (isDigit_of_mem_toDigits n)
  unfold wholePart?
  split
  next c cs hzero =>
    rcases Nat.eq_zero_or_pos n with rfl | hn
    · cases hzero
    · exact absurd (by rw [hzero]; rfl) (head?_toDigits hn)
  next => exact hdigits

/-- A natural number below the bound is in the range. -/
lemma inRange_natCast {n : Nat} (h : (n : Int) < integerBound) : inRange n = true := by
  have hbound : 0 ≤ integerBound := by
    unfold integerBound
    positivity
  have hlow : -integerBound ≤ (n : Int) := by omega
  simp [inRange, h, hlow]

/-- The decimal notation of a number in the range is read as that number. -/
lemma integer?_toDigits {n : Nat} (h : (n : Int) < integerBound) :
    integer? (Nat.toDigits 10 n) = some (n : Int) := by
  have hsign : sign (Nat.toDigits 10 n) = (false, Nat.toDigits 10 n) := by
    unfold sign
    split
    next heq => exact absurd (heq ▸ List.mem_cons_self) (notMem_toDigits rfl)
    next heq => exact absurd (heq ▸ List.mem_cons_self) (notMem_toDigits rfl)
    next => rfl
  have hvalue : ofDigits 10 (Nat.toDigits 10 n) = n := by
    rw [ofDigits, ofDigits_eq_ofDigitChars (isDigit_of_mem_toDigits n),
      Nat.ofDigitChars_ten_toDigits]
  have hrange : inRange n = true := inRange_natCast h
  unfold integer?
  split
  next heq => exact absurd (by simp [heq]) (notMem_toDigits (n := n) (c := 'x') rfl)
  next heq => exact absurd (by simp [heq]) (notMem_toDigits (n := n) (c := 'o') rfl)
  next heq => exact absurd (by simp [heq]) (notMem_toDigits (n := n) (c := 'b') rfl)
  next =>
    rw [hsign]
    dsimp only
    rw [wholePart?_toDigits, Option.map_some, Option.bind_some, if_neg Bool.false_ne_true, hvalue,
      if_pos hrange]

/-- A number in the range is read as it was written. -/
lemma spells_natural {n : Nat} (h : (n : Int) < integerBound) :
    Spells (toString n).toList (.integer n) := by
  have hdigits := isDigit_of_mem_toDigits n
  have hscalar : scalar? (Nat.toDigits 10 n) = some (.integer n) := by
    have htrue : Nat.toDigits 10 n ≠ "true".toList := by
      intro heq
      exact notMem_toDigits (n := n) (c := 't') rfl (by simp [heq])
    have hfalse : Nat.toDigits 10 n ≠ "false".toList := by
      intro heq
      exact notMem_toDigits (n := n) (c := 'f') rfl (by simp [heq])
    rw [scalar?, if_neg htrue, if_neg hfalse, integer?_toDigits h]
  rw [Nat.toString_eq_repr, Nat.toList_repr]
  cases hcs : Nat.toDigits 10 n with
  | nil => exact absurd hcs Nat.toDigits_ne_nil
  | cons c cs =>
    rw [hcs] at hdigits hscalar
    obtain ⟨hc, hrest⟩ := List.forall_mem_cons.mp hdigits
    refine spells_of_token ?_ ?_ hscalar
    · simp [Char.isAlphanum, hc]
    · intro d hd
      simp [isTokenChar, Char.isAlphanum, hrest d hd]

/-! ## Lines -/

/-- A line that assigns a scalar to a key. -/
structure Assignment where
  key : String
  /-- The scalar as it is written. -/
  value : String
  scalar : Scalar

namespace Assignment

/-- The line as it is written. -/
def text (a : Assignment) : String :=
  a.key ++ " = " ++ a.value ++ "\n"

/-- The key needs no quotes, and the value is written as the scalar that it stands for. -/
structure Sound (a : Assignment) : Prop where
  key_ne : a.key.toList ≠ []
  key_bare : ∀ c ∈ a.key.toList, isKeyChar c = true
  spells : Spells a.value.toList a.scalar

/-- An entry has the key and the scalar of a line. -/
def Gives (a : Assignment) (e : Key × Item) : Prop :=
  e.1.text = a.key ∧ ∃ span, e.2 = .scalar span a.scalar

/-- An entry that a line gives has its key and its scalar, wherever they stood. -/
lemma Gives.eq {a : Assignment} {e : Key × Item} (h : a.Gives e) :
    ∃ place span, e = (⟨a.key, place⟩, .scalar span a.scalar) := by
  obtain ⟨⟨text, place⟩, item⟩ := e
  obtain ⟨htext, span, hitem⟩ := h
  dsimp only at htext hitem
  exact ⟨place, span, by rw [htext, hitem]⟩

end Assignment

/-- A key character is none that ends a key. -/
lemma ne_of_isKeyChar {c d : Char} (hc : isKeyChar c = true) (hd : isKeyChar d = false) :
    c ≠ d := by
  rintro rfl
  simp [hc] at hd

/-- There is no space in front of a key. -/
lemma dropSpace_of_isKeyChar {c : Char} (hc : isKeyChar c = true) (p : Place) :
    dropSpace (c :: p) = c :: p := by
  have hspace : isSpace c = false := by
    simp [isSpace, ne_of_isKeyChar hc (d := ' ') rfl, ne_of_isKeyChar hc (d := '\t') rfl]
  rw [dropSpace, List.dropWhile_cons_of_neg (by simp [hspace])]

/-- A line does not end in front of a key. -/
lemma finishLine?_of_isKeyChar {c : Char} (hc : isKeyChar c = true) (p : Place) :
    finishLine? (c :: p) = none := by
  have hcomment : dropComment (c :: p) = c :: p := by
    have := ne_of_isKeyChar hc (d := '#') rfl
    unfold dropComment
    split <;> simp_all
  have hend : lineEnd? (c :: p) = none := by
    have hn := ne_of_isKeyChar hc (d := '\n') rfl
    have hr := ne_of_isKeyChar hc (d := '\r') rfl
    unfold lineEnd?
    split <;> simp_all
  rw [finishLine?, dropSpace_of_isKeyChar hc, hcomment]
  exact hend

/-- A bare key is read up to the blank behind it. -/
lemma key?_bare {key : List Char} (hne : key ≠ []) (hkey : ∀ c ∈ key, isKeyChar c = true)
    (fuel : Nat) (p : Place) :
    ∃ span, key? (fuel + 1) (key ++ ' ' :: '=' :: p)
      = some (([], ⟨String.ofList key, span⟩), '=' :: p) := by
  have hspace : dropSpace (key ++ ' ' :: '=' :: p) = key ++ ' ' :: '=' :: p := by
    cases key with
    | nil => exact absurd rfl hne
    | cons c key => exact dropSpace_of_isKeyChar (hkey c List.mem_cons_self) _
  have htake : List.takeWhile isKeyChar (key ++ ' ' :: '=' :: p) = key := by
    rw [List.takeWhile_append_of_pos hkey]
    simp [isKeyChar]
  have hdrop : List.dropWhile isKeyChar (key ++ ' ' :: '=' :: p) = ' ' :: '=' :: p := by
    rw [List.dropWhile_append_of_pos hkey]
    simp [isKeyChar]
  refine ⟨⟨key ++ ' ' :: '=' :: p, ' ' :: '=' :: p⟩, ?_⟩
  rw [key?, hspace, keySegment?, htake, hdrop, if_neg (by simpa using hne)]
  rfl

/-- A line is read as its assignment, up to its end. -/
lemma assignment?_line {a : Assignment} (ha : a.Sound) (rest : Place) :
    ∃ e : Key × Item, a.Gives e ∧
      assignment? (value? maxDepth) (a.text.toList ++ rest)
        = some (([], e.1, e.2), '\n' :: rest) := by
  obtain ⟨hspace, place, hvalue⟩ := ha.spells rest
  have htext : a.text.toList ++ rest
      = a.key.toList ++ ' ' :: '=' :: ' ' :: (a.value.toList ++ '\n' :: rest) := by
    simp [Assignment.text]
  have hblank : dropSpace (' ' :: (a.value.toList ++ '\n' :: rest))
      = a.value.toList ++ '\n' :: rest := by
    rw [dropSpace, List.dropWhile_cons_of_pos rfl]
    exact hspace
  obtain ⟨span, hkey⟩ := key?_bare ha.key_ne ha.key_bare (a.text.toList ++ rest).length
    (' ' :: (a.value.toList ++ '\n' :: rest))
  rw [← htext] at hkey
  refine ⟨(⟨a.key, span⟩, .scalar place a.scalar), ⟨rfl, place, rfl⟩, ?_⟩
  simp only [assignment?, hkey, hblank, hvalue, Option.map_some, String.ofList_toList]

/-- A line begins with a character of its key. -/
lemma exists_keyChar {a : Assignment} (ha : a.Sound) (rest : Place) :
    ∃ c p, isKeyChar c = true ∧ a.text.toList ++ rest = c :: p := by
  cases hcs : a.key.toList with
  | nil => exact absurd hcs ha.key_ne
  | cons c cs =>
    have hc : isKeyChar c = true := ha.key_bare c (by simp [hcs])
    refine ⟨c, cs ++ ' ' :: '=' :: ' ' :: (a.value.toList ++ '\n' :: rest), hc, ?_⟩
    simp [Assignment.text, hcs]

/-- One line of a document: a key that is new gets its scalar, and the reader goes on behind the
line. -/
lemma statements_line {a : Assignment} (ha : a.Sound) {root : Entries}
    (hnew : root.get? a.key = none) (fuel : Nat) (rest : Place) :
    ∃ e, a.Gives e ∧ statements (fuel + 1) { root } (a.text.toList ++ rest)
      = statements fuel { root := root ++ [e] } rest := by
  obtain ⟨e, he, hassign⟩ := assignment?_line ha rest
  obtain ⟨c, p, hc, hp⟩ := exists_keyChar ha rest
  rw [hp] at hassign ⊢
  have hput : Entries.inside [] (Entries.assign [] e.1 e.2) root = some (root ++ [e]) := by
    rw [Entries.inside, Entries.assign, he.1, hnew]
    rfl
  have hstatement : statement? { root } (c :: p)
      = some ({ root := root ++ [e] }, '\n' :: rest) := by
    unfold statement?
    split
    next heq => exact absurd (List.cons.inj heq).1 (ne_of_isKeyChar hc rfl)
    next => simp [hassign, hput]
  have hend : finishLine? ('\n' :: rest) = some rest := rfl
  refine ⟨e, he, ?_⟩
  rw [statements]
  simp only [dropSpace_of_isKeyChar hc, finishLine?_of_isKeyChar hc, hstatement,
    Option.bind_eq_bind, Option.bind_some, hend]

/-- The lines of a document: keys that are new and differ from one another get their scalars, in
their order. -/
lemma statements_lines {as : List Assignment} (has : ∀ a ∈ as, a.Sound)
    (hkeys : (as.map Assignment.key).Nodup) {root : Entries}
    (hnew : ∀ a ∈ as, root.get? a.key = none) {fuel : Nat} (hfuel : as.length < fuel) :
    ∃ es, List.Forall₂ Assignment.Gives as es ∧
      statements fuel { root } (as.flatMap (·.text.toList)) = some (root ++ es) := by
  induction as generalizing root fuel with
  | nil =>
    obtain ⟨fuel, rfl⟩ := Nat.exists_eq_add_one_of_ne_zero (Nat.ne_zero_of_lt hfuel)
    exact ⟨[], .nil, by simp [statements, dropSpace]⟩
  | cons a as ih =>
    obtain ⟨fuel, rfl⟩ := Nat.exists_eq_add_one_of_ne_zero (Nat.ne_zero_of_lt hfuel)
    obtain ⟨ha, has⟩ := List.forall_mem_cons.mp has
    obtain ⟨hnewa, hnewas⟩ := List.forall_mem_cons.mp hnew
    rw [List.map_cons, List.nodup_cons] at hkeys
    obtain ⟨e, he, hline⟩ := statements_line ha hnewa fuel (as.flatMap (·.text.toList))
    have hnext : ∀ b ∈ as, (root ++ [e]).get? b.key = none := by
      intro b hb
      have hne : a.key ≠ b.key := by
        intro h
        exact hkeys.1 (h ▸ List.mem_map_of_mem hb)
      have hb := hnewas b hb
      rw [Entries.get?, Option.map_eq_none_iff] at hb ⊢
      rw [List.find?_append, hb]
      simp [he.1, hne]
    have hless : as.length < fuel := by
      rw [List.length_cons] at hfuel
      omega
    obtain ⟨es, hes, hlines⟩ := ih has hkeys.2 hnext hless
    refine ⟨e :: es, .cons he hes, ?_⟩
    rw [List.flatMap_cons, hline, hlines]
    simp

/-- There are no more lines than characters. -/
lemma length_le_of_sound {as : List Assignment} (has : ∀ a ∈ as, a.Sound) :
    as.length ≤ (as.flatMap (·.text.toList)).length := by
  induction as with
  | nil => simp
  | cons a as ih =>
    have hrest := ih (List.forall_mem_cons.mp has).2
    have hone : 0 < a.text.toList.length := by simp [Assignment.text]
    rw [List.flatMap_cons, List.length_append, List.length_cons]
    omega

/-- **A document of assignments is read as those assignments**, as long as no key is there twice. -/
theorem parse?_assignments {as : List Assignment} (has : ∀ a ∈ as, a.Sound)
    (hkeys : (as.map Assignment.key).Nodup) :
    ∃ es, List.Forall₂ Assignment.Gives as es ∧
      parse? (String.join (as.map Assignment.text)) = some es := by
  have hdocument : (String.join (as.map Assignment.text)).toList = as.flatMap (·.text.toList) := by
    rw [String.toList_join, List.flatMap_map]
  have hmark : ∀ p, as.flatMap (·.text.toList) ≠ '\uFEFF' :: p := by
    intro p hp
    cases as with
    | nil => cases hp
    | cons a as =>
      have ha : a.Sound := has a List.mem_cons_self
      obtain ⟨c, q, hc, hq⟩ := exists_keyChar ha (as.flatMap (·.text.toList))
      rw [List.flatMap_cons, hq] at hp
      exact ne_of_isKeyChar hc (d := '\uFEFF') rfl (List.cons.inj hp).1
  have hempty : ∀ a ∈ as, Entries.get? [] a.key = none := fun a _ => rfl
  have hfuel : as.length < (as.flatMap (·.text.toList)).length + 1 :=
    Nat.lt_succ_of_le (length_le_of_sound has)
  obtain ⟨es, hes, hlines⟩ := statements_lines has hkeys hempty hfuel
  refine ⟨es, hes, ?_⟩
  rw [parse?, hdocument]
  split
  next p heq => exact absurd heq (hmark p)
  next => exact hlines

/-! ## The order of the keys -/

/-- Entries whose keys differ from one another have one order. -/
lemma inKeyOrder_eq {es sorted : Entries} (hperm : sorted.Perm es)
    (hsorted : (sorted.map (·.1.text)).Pairwise (· < ·)) : inKeyOrder es = sorted := by
  have hkeys : (sorted.map (·.1.text)).Nodup := hsorted.imp String.ne_of_lt
  have hmerged : (inKeyOrder es).Perm sorted := (List.mergeSort_perm es _).trans hperm.symm
  have horder : (inKeyOrder es).Pairwise fun a b => a.1.text ≤ b.1.text := by
    have hmerge : (inKeyOrder es).Pairwise fun a b => decide (a.1.text ≤ b.1.text) = true := by
      refine List.pairwise_mergeSort ?_ ?_ es
      · intro a b c hab hbc
        rw [decide_eq_true_eq] at hab hbc ⊢
        exact String.le_trans hab hbc
      · intro a b
        simpa using String.le_total a.1.text b.1.text
    simpa using hmerge
  have hle : sorted.Pairwise fun a b => a.1.text ≤ b.1.text :=
    (List.pairwise_map.mp hsorted).imp fun hlt => String.not_lt.mp (String.lt_asymm hlt)
  refine List.Perm.eq_of_pairwise ?_ horder hle hmerged
  intro a b ha hb hab hba
  exact List.inj_on_of_nodup_map hkeys (hmerged.mem_iff.mp ha) hb (String.le_antisymm hab hba)

end SourceFormat.Toml
