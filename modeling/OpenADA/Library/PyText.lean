import Mathlib.Data.List.DropRight
import Mathlib.Tactic

/-! The string operations of a Python program, over lists of characters. -/
namespace PyText

instance lawfulText : LawfulBEq (List Char) := inferInstance

instance lawfulLetter : LawfulBEq (Option Char) := inferInstance

/-- `str.isspace` of one character. -/
def isSpace (c : Char) : Bool :=
  let n := c.toNat
  (9 ≤ n && n ≤ 13) || (28 ≤ n && n ≤ 32) || n = 0x85 || n = 0xA0 || n = 0x1680 ||
    (0x2000 ≤ n && n ≤ 0x200A) || n = 0x2028 || n = 0x2029 || n = 0x202F || n = 0x205F ||
    n = 0x3000

/-- A character `str.splitlines` breaks at. -/
def isLineBreak (c : Char) : Bool :=
  let n := c.toNat
  (10 ≤ n && n ≤ 13) || (28 ≤ n && n ≤ 30) || n = 0x85 || n = 0x2028 || n = 0x2029

/-- The lines of a text, each with its line ending; `line` is the line read so far. -/
def breakLines (line : List Char) : List Char → List (List Char × List Char)
  | [] => if line.isEmpty then [] else [(line, [])]
  | [c] => if isLineBreak c then [(line, [c])] else [(line ++ [c], [])]
  | c :: next :: rest =>
    if c = '\r' ∧ next = '\n' then (line, [c, next]) :: breakLines [] rest
    else if isLineBreak c then (line, [c]) :: breakLines [] (next :: rest)
    else breakLines (line ++ [c]) (next :: rest)

/-- `str.splitlines()`. -/
def splitLines (text : List Char) : List (List Char) := (breakLines [] text).map Prod.fst

/-- `str.splitlines(keepends=True)`. -/
def splitKeeping (text : List Char) : List (List Char) :=
  (breakLines [] text).map fun line => line.1 ++ line.2

/-- `str.lstrip(chars)`. -/
def lstrip (strips : Char → Bool) (text : List Char) : List Char := text.dropWhile strips

/-- `str.rstrip(chars)`. -/
def rstrip (strips : Char → Bool) (text : List Char) : List Char := text.rdropWhile strips

/-- `str.strip()`. -/
def strip (text : List Char) : List Char := rstrip isSpace (lstrip isSpace text)

/-- `str.replace(old, new)` for a nonempty `old`; `skip` counts the characters of a match that
are still to be passed. -/
def replaceFrom (old new : List Char) : ℕ → List Char → List Char
  | _, [] => []
  | skip + 1, _ :: rest => replaceFrom old new skip rest
  | 0, c :: rest =>
    if old.isPrefixOf (c :: rest) then new ++ replaceFrom old new (old.length - 1) rest
    else c :: replaceFrom old new 0 rest

/-- `str.replace`. -/
def replace (old new text : String) : String :=
  String.ofList (replaceFrom old.toList new.toList 0 text.toList)

/-- `str.casefold` of one Latin-1 character. -/
def foldChar (c : Char) : List Char :=
  let n := c.toNat
  if (65 ≤ n ∧ n ≤ 90) ∨ (0xC0 ≤ n ∧ n ≤ 0xDE ∧ n ≠ 0xD7) then [Char.ofNat (n + 32)]
  else if n = 0xDF then ['s', 's']
  else if n = 0xB5 then [Char.ofNat 0x3BC]
  else [c]

/-- `str.casefold` of a text of Latin-1 characters. -/
def casefold (text : String) : String := String.ofList (text.toList.flatMap foldChar)

/-- `str.lower`, by the case mapping of the interpreter's Unicode version: the mapping of one
character, and where a capital sigma is a final one. -/
structure CaseMap where
  lowerChar : Char → List Char
  finalSigma : List Char → List Char → Bool
  ascii : ∀ c, c.toNat < 128 → lowerChar c = [c.toLower]
  space : ∀ c, isSpace c = true → lowerChar c = [c]

/-- The characters of `str.lower`; `before` is the text already read. -/
def CaseMap.lowerFrom (cases : CaseMap) (before : List Char) : List Char → List Char
  | [] => []
  | c :: rest =>
    (if c = 'Σ' then [if cases.finalSigma before rest then 'ς' else 'σ'] else cases.lowerChar c) ++
      cases.lowerFrom (before ++ [c]) rest

/-- `str.lower`. -/
def CaseMap.lower (cases : CaseMap) (text : List Char) : List Char := cases.lowerFrom [] text

/-- Where a POSIX `shlex` lexer stands: between tokens, in a word, in a quotation, or after an
escape character in a word (`none`) or in a quotation. -/
inductive LexState where
  | space
  | word
  | quote (mark : Char)
  | escape (mark : Option Char)

/-- `shlex.shlex(text, posix=True)` with `commenters = ""` and `whitespace_split = True`; `none`
is its ValueError. -/
def lex : LexState → List Char → List Char → Option (List (List Char))
  | .space, _, [] => some []
  | .word, token, [] => some [token]
  | .quote _, _, [] => none
  | .escape _, _, [] => none
  | .space, _, c :: rest =>
    if c ∈ [' ', '\t', '\r', '\n'] then lex .space [] rest
    else if c = '\\' then lex (.escape none) [] rest
    else if c ∈ ['\'', '"'] then lex (.quote c) [] rest
    else lex .word [c] rest
  | .quote mark, token, c :: rest =>
    if c = mark then lex .word token rest
    else if c = '\\' ∧ mark = '"' then lex (.escape (some mark)) token rest
    else lex (.quote mark) (token ++ [c]) rest
  | .escape none, token, c :: rest => lex .word (token ++ [c]) rest
  | .escape (some mark), token, c :: rest =>
    -- inside a quotation only the mark and the escape character itself are escaped
    if c ≠ '\\' ∧ c ≠ mark then lex (.quote mark) (token ++ ['\\', c]) rest
    else lex (.quote mark) (token ++ [c]) rest
  | .word, token, c :: rest =>
    if c ∈ [' ', '\t', '\r', '\n'] then (lex .space [] rest).map fun tokens => token :: tokens
    else if c ∈ ['\'', '"'] then lex (.quote c) token rest
    else if c = '\\' then lex (.escape none) token rest
    else lex .word (token ++ [c]) rest

/-- The tokens of a text, or `none` for a quotation or an escape that does not end. -/
def shlex (text : List Char) : Option (List String) :=
  (lex .space [] text).map fun tokens => tokens.map String.ofList

example : splitLines "a\r\nb\x0bc\n".toList = ["a".toList, "b".toList, "c".toList] := by decide

example : shlex ".lib 'a b.lib' \"t\\\"t\"".toList = some [".lib", "a b.lib", "t\"t"] := by
  decide

def asciiCases : CaseMap where
  lowerChar c := [c.toLower]
  finalSigma _ _ := false
  ascii _ _ := rfl
  space c hc := by
    have hcase : ¬ (c.val ≥ 'A'.val ∧ c.val ≤ 'Z'.val) := by
      rintro ⟨hlow, hhigh⟩
      have hlow : 65 ≤ c.toNat := UInt32.le_iff_toNat_le.mp hlow
      have hhigh : c.toNat ≤ 90 := UInt32.le_iff_toNat_le.mp hhigh
      simp only [isSpace, Bool.or_eq_true, Bool.and_eq_true, decide_eq_true_eq] at hc
      omega
    exact congrArg (fun d => [d]) (dif_neg hcase)

theorem isSpace_of_isLineBreak {c : Char} (h : isLineBreak c = true) : isSpace c = true := by
  simp only [isLineBreak, isSpace, Bool.or_eq_true, Bool.and_eq_true, decide_eq_true_eq] at h ⊢
  omega

theorem flatten_breakLines (line text : List Char) :
    ((breakLines line text).map fun broken => broken.1 ++ broken.2).flatten = line ++ text := by
  fun_induction breakLines line text with
  | case1 line h => simp [List.isEmpty_iff.mp h]
  | case2 line h => simp
  | case3 line c h => simp
  | case4 line c h => simp
  | case5 line c next rest h ih => simp [ih]
  | case6 line c next rest h hbreak ih => simp [ih]
  | case7 line c next rest h hbreak ih => simp [ih]

theorem flatten_splitKeeping (text : List Char) : (splitKeeping text).flatten = text :=
  flatten_breakLines [] text

theorem breakLines_ends (line text : List Char) :
    ∀ broken ∈ (breakLines line text).dropLast, ∃ c ∈ broken.2.getLast?, isLineBreak c = true := by
  have hcons : ∀ (first : List Char × List Char) (rest : List (List Char × List Char)),
      (∃ c ∈ first.2.getLast?, isLineBreak c = true) →
      (∀ broken ∈ rest.dropLast, ∃ c ∈ broken.2.getLast?, isLineBreak c = true) →
      ∀ broken ∈ (first :: rest).dropLast, ∃ c ∈ broken.2.getLast?, isLineBreak c = true := by
    intro first rest hfirst hrest broken hmem
    cases rest with
    | nil => cases hmem
    | cons second rest =>
      rcases List.mem_cons.mp hmem with rfl | hmem
      · exact hfirst
      · exact hrest broken hmem
  fun_induction breakLines line text with
  | case1 | case2 | case3 | case4 => exact fun _ hmem => absurd hmem List.not_mem_nil
  | case5 line c next rest h ih =>
    refine hcons _ _ ⟨next, rfl, ?_⟩ ih
    rw [h.2]
    decide
  | case6 line c next rest h hbreak ih => exact hcons _ _ ⟨c, rfl, hbreak⟩ ih
  | case7 line c next rest h hbreak ih => exact ih

theorem append_literal {text chars : List Char} (h : text = chars) (more : List Char) :
    text ++ (String.ofList more).toList = chars ++ more := by
  rw [h, String.toList_ofList]

end PyText
