import Rowlang.Text.Printable

/-!
# Quotation

Two ways in which text stands between quotes:

* `quote`, `quoteChar` : the form used in messages and printed trees, which shows controls,
  combining marks and unprintable characters by their code points;
* `unquote` : the reading of a quoted token of source text, with its own small set of escapes.
-/

namespace Rowlang.Text

/-! ## Showing text -/

/-- The code point of a character, in lower-case hexadecimal. -/
def codePointEscape (c : Char) : List Char :=
  "\\u\x7b".toList ++ Nat.toDigits 16 c.toNat ++ ['\x7d']

def escape (delimiter c : Char) : List Char :=
  if c == '\x00' then ['\\', '0']
  else if c == '\t' then ['\\', 't']
  else if c == '\r' then ['\\', 'r']
  else if c == '\n' then ['\\', 'n']
  else if c == '\\' || c == delimiter then ['\\', c]
  else if extendsGrapheme c || !isPrintable c then codePointEscape c
  else [c]

def quote (s : String) : String :=
  String.ofList ('"' :: s.toList.flatMap (escape '"') ++ ['"'])

def quoteChar (c : Char) : String :=
  String.ofList ('\'' :: escape '\'' c ++ ['\''])

/-! ## Reading quoted tokens -/

/-- The character that a backslash and `c` stand for. -/
def unescapedChar (c : Char) : Char :=
  if c == 'n' then '\n' else if c == 't' then '\t' else if c == 'r' then '\r' else c

/-- Resolves backslash escapes; a backslash that ends the text stands for itself. -/
def unescape : List Char → List Char
  | [] => []
  | ['\\'] => ['\\']
  | '\\' :: c :: rest => unescapedChar c :: unescape rest
  | c :: rest => c :: unescape rest

theorem unescape_cons {c : Char} (h : c ≠ '\\') (rest : List Char) :
    unescape (c :: rest) = c :: unescape rest := by
  rw [unescape]
  · rintro rfl
    exact absurd rfl h
  · rintro _ _ rfl
    exact absurd rfl h

theorem unescape_pair (c : Char) (rest : List Char) :
    unescape ('\\' :: c :: rest) = unescapedChar c :: unescape rest := rfl

/-- Whether a text starts and ends with the quote `q`, at two different places. -/
def isQuotedBy (q : Char) (cs : List Char) : Bool :=
  2 ≤ cs.length && cs.head? == some q && cs.getLast? == some q

/-- The content of a quoted token. A text that is not quoted stands for itself. -/
def unquote (cs : List Char) : List Char :=
  if isQuotedBy '"' cs || isQuotedBy '\'' cs then unescape (cs.drop 1).dropLast else cs

theorem unquote_quoted (cs : List Char) : unquote ('"' :: (cs ++ ['"'])) = unescape cs := by
  have between : isQuotedBy '"' ('"' :: (cs ++ ['"'])) = true := by
    rw [isQuotedBy, ← List.cons_append, List.getLast?_concat]
    simp
  rw [unquote, between, Bool.true_or, if_pos rfl, List.drop_one, List.tail_cons, List.dropLast_concat]

example : unquote "\"a\\\"b\"".toList = "a\"b".toList := by decide +kernel

example : unquote "'tab\\there'".toList = "tab\there".toList := by decide +kernel

example : unquote "plain".toList = "plain".toList := by decide +kernel

end Rowlang.Text
