import Rowlang.Grammar.Reading
import Rowlang.Proofs.Grammar.Emptiness
import Rowlang.Proofs.Lexing.Words

/-!
# The tokens of grammar definitions

* `definitionLeaves` : the leaf patterns of the grammar of definitions;
* `takes_mark`, `takes_lookAhead`, `takes_name`, `takes_count`, `takes_quoteLiteral` : which texts are
  taken as a lexeme, and what may not follow them;
* `unquote_quoteLiteral` : the text of a literal is read back from between its quotes;
* `IsRuleName` : the names that are read as such;
* `isDefinitionToken_of_scan` : what the tokens of a text are spelled like.
-/

namespace Rowlang
open Rowlang.Text Rowlang.Pattern Rowlang.Pattern.Regex

/-! ## Tables -/

def markTexts : List String := ["\x7b", "\x7d", "|", "*", "+", "?", "(", ")"]

/-- The leaf patterns of the grammar of definitions. -/
def definitionLeaves : List LeafPattern :=
  (markTexts ++ ["LookAhead"]).map .literal ++
    ["Name", "String", "QuotedString", "Number"].map lexicalLeaf

theorem definitionGrammar_compiles : definitionGrammar.Compiles definitionRules := by
  have compiles := (Grammar.compiles_of_ofDefinitions (eq_ok_get definitionRules_build)).1
  exact compiles.withComments .skip

theorem definitionGrammar_prepared :
    ∃ patterns, Lexicon.ofPatterns? patterns = some definitionGrammar.lexicon :=
  ⟨_, definitionGrammar_compiles.patterns⟩

theorem perm_definitionLeaves : definitionGrammar.lexicon.patterns.Perm definitionLeaves := by
  rw [definitionGrammar_compiles.lexicon_patterns]
  decide

theorem mem_definitionLeaves : ∀ p ∈ definitionGrammar.lexicon.patterns, p ∈ definitionLeaves :=
  fun _ listed => perm_definitionLeaves.subset listed

theorem definitionLeaves_subset : ∀ p ∈ definitionLeaves, p ∈ definitionGrammar.lexicon.patterns :=
  fun _ listed => perm_definitionLeaves.symm.subset listed

theorem lexicalLeaf_listed {name : String} (known : name ∈ ["Name", "String", "QuotedString", "Number"]) :
    lexicalLeaf name ∈ definitionLeaves :=
  List.mem_append_right _ (List.mem_map_of_mem known)

theorem symbol_listed {s : String} (known : s ∈ markTexts ++ ["LookAhead"]) :
    .literal s ∈ definitionLeaves :=
  List.mem_append_left _ (List.mem_map_of_mem known)

theorem nodup_definitionLeaves : definitionGrammar.lexicon.patterns.Nodup :=
  perm_definitionLeaves.nodup_iff.2 (by decide)

theorem loose_definitionLeaves : ∀ p ∈ definitionGrammar.lexicon.patterns, p.loose = false := by
  have firm : ∀ p ∈ definitionLeaves, p.loose = false := by decide
  exact fun p listed => firm p (mem_definitionLeaves p listed)

theorem definitionWord {p : LeafPattern} (listed : p ∈ definitionGrammar.lexicon.patterns)
    {w : List Char} (spells : p.Spells w) :
    (∃ s ∈ markTexts ++ ["LookAhead"], p = .literal s ∧ w = s.toList) ∨
      ∃ name ∈ ["Name", "String", "QuotedString", "Number"], p = lexicalLeaf name ∧
        LexicalWord name w := by
  rcases List.mem_append.1 (mem_definitionLeaves p listed) with literal | lexical
  · obtain ⟨s, known, rfl⟩ := List.mem_map.1 literal
    exact .inl ⟨s, known, rfl, spells⟩
  · obtain ⟨name, known, rfl⟩ := List.mem_map.1 lexical
    have among : ∀ name ∈ ["Name", "String", "QuotedString", "Number"],
        name ∈ lexicalRegexes.map (·.1) := by decide
    exact .inr ⟨name, known, rfl, lexicalWord_of_spells (among name known) spells⟩

theorem head_markTexts : ∀ s ∈ markTexts, ∃ c, s.toList = [c] ∧ nameStart.has c = false ∧
    c.isDigit = false ∧ c ∉ ['"', '\'', '/', 'L'] ∧ '!' ≤ c ∧ c ≤ '~' := by
  have each : ∀ s ∈ markTexts, s.toList.length = 1 ∧ (s.toList.all fun c => !nameStart.has c &&
      !c.isDigit && !List.contains ['"', '\'', '/', 'L'] c && '!' ≤ c && c ≤ '~') = true := by
    decide
  intro s listed
  obtain ⟨length, facts⟩ := each s listed
  obtain ⟨c, single⟩ := List.length_eq_one_iff.1 length
  refine ⟨c, single, ?_⟩
  simpa [single, and_assoc] using facts

theorem weight_name : (lexicalLeaf "Name").weight = 0 := by decide

theorem part_lookAhead : ∀ c ∈ "LookAhead".toList, namePart.has c = true := by
  have all : "LookAhead".toList.all namePart.has = true := by decide
  exact List.all_eq_true.1 all

theorem eq_head_of_prefix {w u cs : List Char} {c : Char} (front : w <+: (c :: u) ++ cs)
    (nonempty : w ≠ []) : ∃ v, w = c :: v := by
  obtain ⟨d, v, rfl⟩ := List.exists_cons_of_ne_nil nonempty
  rw [List.cons_append] at front
  obtain rfl := (List.cons_prefix_cons.1 front).1
  exact ⟨v, rfl⟩

theorem definitionWord_of_head {p : LeafPattern} (listed : p ∈ definitionGrammar.lexicon.patterns)
    {c : Char} {v : List Char} (spells : p.Spells (c :: v)) :
    (∃ s ∈ markTexts, p = .literal s ∧ s.toList = [c] ∧ v = []) ∨
      (p = .literal "LookAhead" ∧ c :: v = "LookAhead".toList) ∨
      (p = lexicalLeaf "Name" ∧ nameStart.has c = true ∧ ∀ d ∈ v, namePart.has d = true) ∨
      (p = lexicalLeaf "Number" ∧ c.isDigit = true ∧ c ≠ '0' ∧ ∀ d ∈ v, d.isDigit = true) ∨
      (p = lexicalLeaf "String" ∧ c = '"') ∨ p = lexicalLeaf "QuotedString" ∧ c = '\'' := by
  rcases definitionWord listed spells with ⟨s, known, rfl, same⟩ | ⟨name, known, rfl, word⟩
  · rcases List.mem_append.1 known with mark | word
    · obtain ⟨d, single, -⟩ := head_markTexts s mark
      rw [single, List.cons.injEq] at same
      exact .inl ⟨s, mark, rfl, same.1 ▸ single, same.2⟩
    · obtain rfl := List.mem_singleton.1 word
      exact .inr (.inl ⟨rfl, same⟩)
  · refine .inr (.inr ?_)
    generalize whole : c :: v = w at word
    cases word with
    | name start part => cases whole; exact .inl ⟨rfl, start, part⟩
    | number start nonzero digits => cases whole; exact .inr (.inl ⟨rfl, start, nonzero, digits⟩)
    | string => cases whole; exact .inr (.inr (.inl ⟨rfl, rfl⟩))
    | quotedString => cases whole; exact .inr (.inr (.inr ⟨rfl, rfl⟩))
    | integer | decimal => simp at known

/-! ## What is taken -/

section
variable {rest : List Char} {c : Char} {v : List Char}

/-- A lexeme is taken if its pattern takes it, and every other word that begins as it does is shorter,
or of a pattern with a shorter fixed beginning. -/
theorem definitionGrammar_takes {leaf : LeafPattern} {t : List Char} (listed : leaf ∈ definitionLeaves)
    (text : t = c :: v) (visible : '!' ≤ c ∧ c ≤ '~') (uncommented : c ≠ '/')
    (taken : ∀ m, Matcher.ofPattern? leaf = some m → m.matchLength (t ++ rest) = some t.length)
    (others : ∀ p ∈ definitionGrammar.lexicon.patterns, p ≠ leaf → ∀ u, p.Spells (c :: u) →
      c :: u <+: t ++ rest →
      (c :: u).length < t.length ∨ (c :: u).length = t.length ∧ p.weight < leaf.weight) :
    definitionGrammar.lexicon.Takes ⟨leaf, t⟩ rest := by
  obtain ⟨patterns, prepared⟩ := definitionGrammar_prepared
  refine Lexicon.takes_of prepared nodup_definitionLeaves loose_definitionLeaves
    (definitionLeaves_subset _ listed) text visible uncommented taken fun p inside other w spells front => ?_
  have nonempty : w ≠ [] := by
    rintro rfl
    rcases definitionWord inside spells with ⟨s, known, -, same⟩ | ⟨name, -, -, word⟩
    · have some : ∀ s ∈ markTexts ++ ["LookAhead"], s.toList ≠ [] := by decide
      exact some s known same.symm
    · generalize whole : ([] : List Char) = w at word
      cases word with
      | integer nonempty => exact nonempty whole.symm
      | decimal => simp at whole
      | _ => cases whole
  obtain ⟨u, rfl⟩ := eq_head_of_prefix (text ▸ front) nonempty
  exact others p inside other u spells front

/-- A mark is taken wherever it stands. -/
theorem takes_mark {s : String} (listed : s ∈ markTexts) :
    definitionGrammar.lexicon.Takes (.symbol s) rest := by
  obtain ⟨c, single, notStart, notDigit, other, visible⟩ := head_markTexts s listed
  simp only [List.mem_cons, List.not_mem_nil, or_false, not_or] at other
  obtain ⟨notQuote, notSingle, notSlash, notWord⟩ := other
  refine definitionGrammar_takes (symbol_listed (List.mem_append_left _ listed))
    single visible notSlash
    (fun m made => Lexicon.matchLength_literal made) fun p inside different u spells front => ?_
  exfalso
  rcases definitionWord_of_head inside spells with ⟨t, -, rfl, same, -⟩ | ⟨-, word⟩ | ⟨-, start, -⟩ |
    ⟨-, digit, -⟩ | ⟨-, rfl⟩ | ⟨-, rfl⟩
  · exact different (congrArg _ (String.toList_injective (same.trans single.symm)))
  · exact notWord (List.cons.inj word).1
  · rw [notStart] at start
    cases start
  · rw [notDigit] at digit
    cases digit
  · exact notQuote rfl
  · exact notSingle rfl

/-- The word `LookAhead` is taken where it ends. -/
theorem takes_lookAhead (stop : ∀ d ∈ rest.head?, namePart.has d = false) :
    definitionGrammar.lexicon.Takes (.symbol "LookAhead") rest := by
  refine definitionGrammar_takes (c := 'L') (v := "ookAhead".toList)
    (symbol_listed (show "LookAhead" ∈ _ by decide)) rfl (by decide)
    (by decide) (fun m made => Lexicon.matchLength_literal made) fun p inside different u spells front => ?_
  rcases definitionWord_of_head inside spells with ⟨t, known, rfl, same, -⟩ | ⟨rfl, -⟩ | ⟨rfl, -, part⟩ |
    ⟨-, digit, -⟩ | ⟨-, quote⟩ | ⟨-, quote⟩
  · obtain ⟨d, single, -, -, other, -⟩ := head_markTexts t known
    cases same.symm.trans single
    simp at other
  · exact absurd rfl different
  · have le := length_le_of_stop (P := (namePart.has · = true)) front (by decide) part
      fun d hd => by simp [stop d hd]
    have lighter : (lexicalLeaf "Name").weight < (LeafPattern.literal "LookAhead").weight := by
      rw [weight_name]
      decide
    exact (Nat.lt_or_eq_of_le le).imp_right fun same => ⟨same, lighter⟩
  · cases digit
  · cases quote
  · cases quote

/-- A name other than `LookAhead` is taken where it ends. -/
theorem takes_name (start : nameStart.has c = true) (part : ∀ d ∈ v, namePart.has d = true)
    (unreserved : c :: v ≠ "LookAhead".toList) (stop : ∀ d ∈ rest.head?, namePart.has d = false) :
    definitionGrammar.lexicon.Takes ⟨lexicalLeaf "Name", c :: v⟩ rest := by
  obtain ⟨notDigit, other, visible⟩ := head_of_nameStart start
  simp only [List.mem_cons, List.not_mem_nil, or_false, not_or] at other
  obtain ⟨notQuote, notSingle, -, notSlash⟩ := other
  refine definitionGrammar_takes (lexicalLeaf_listed (show "Name" ∈ _ by decide)) rfl visible notSlash
    (fun m made => Lexicon.matchLength_lexical (by simp [lexicalRegexes])
      (takes_nameRegex start part stop) made) fun p inside different u spells front => .inl ?_
  rcases definitionWord_of_head inside spells with ⟨t, known, rfl, same, -⟩ | ⟨rfl, word⟩ | ⟨rfl, -⟩ |
    ⟨-, digit, -⟩ | ⟨-, rfl⟩ | ⟨-, rfl⟩
  · obtain ⟨d, single, notStart, -⟩ := head_markTexts t known
    cases same.symm.trans single
    rw [notStart] at start
    cases start
  · rw [word] at front ⊢
    have le := length_le_of_stop (P := (namePart.has · = true)) front (List.cons_ne_nil c v)
      (fun d hd => part_lookAhead d (List.mem_of_mem_tail hd)) fun d hd => by simp [stop d hd]
    refine Nat.lt_of_le_of_ne le fun same => unreserved ?_
    exact ((List.prefix_of_prefix_length_le front (List.prefix_append _ rest) le).eq_of_length
      same).symm
  · exact absurd rfl different
  · rw [notDigit] at digit
    cases digit
  · exact absurd rfl notQuote
  · exact absurd rfl notSingle

/-- The digits of a number from one on are taken where they end. -/
theorem takes_count (start : c.isDigit = true) (nonzero : c ≠ '0')
    (digits : ∀ d ∈ v, d.isDigit = true) (stop : ∀ d ∈ rest.head?, d.isDigit = false) :
    definitionGrammar.lexicon.Takes ⟨lexicalLeaf "Number", c :: v⟩ rest := by
  obtain ⟨notStart, other⟩ := head_of_isDigit start
  simp only [List.mem_cons, List.not_mem_nil, or_false, not_or] at other
  obtain ⟨notQuote, notSingle, -, notSlash⟩ := other
  refine definitionGrammar_takes (lexicalLeaf_listed (show "Number" ∈ _ by decide)) rfl
    (visible_of_isDigit start) notSlash
    (fun m made => Lexicon.matchLength_lexical (by simp [lexicalRegexes])
      (takes_numberRegex start nonzero digits stop) made) fun p inside different u spells front => ?_
  exfalso
  rcases definitionWord_of_head inside spells with ⟨t, known, rfl, same, -⟩ | ⟨rfl, word⟩ |
    ⟨rfl, start', -⟩ | ⟨rfl, -⟩ | ⟨-, rfl⟩ | ⟨-, rfl⟩
  · obtain ⟨d, single, -, notDigit, -⟩ := head_markTexts t known
    cases same.symm.trans single
    rw [notDigit] at start
    cases start
  · obtain rfl := (List.cons.inj word).1
    cases start
  · rw [notStart] at start'
    cases start'
  · exact different rfl
  · exact notQuote rfl
  · exact notSingle rfl

end

/-! ## Literals -/

/-- A character between quotes as it is written. -/
def escapeLiteral (c : Char) : List Char := if c == '\\' || c == '"' then ['\\', c] else [c]

theorem toList_quoteLiteral (s : String) :
    (quoteLiteral s).toList = '"' :: (s.toList.flatMap escapeLiteral ++ ['"']) :=
  String.toList_ofList

theorem escapeLiteral_cases (c : Char) :
    (escapeLiteral c = [c] ∧ c ≠ '"' ∧ c ≠ '\\') ∨ escapeLiteral c = ['\\', c] ∧ c ∈ ['\\', '"'] := by
  unfold escapeLiteral
  split
  · rename_i special
    exact .inr ⟨rfl, by simpa using special⟩
  · rename_i plain
    simp only [Bool.or_eq_true, beq_iff_eq, not_or] at plain
    exact .inl ⟨rfl, plain.2, plain.1⟩

/-- A literal is taken wherever it stands. -/
theorem takes_quoteLiteral (s : String) {rest : List Char} :
    definitionGrammar.lexicon.Takes ⟨lexicalLeaf "String", (quoteLiteral s).toList⟩ rest := by
  have taken : (quotedRegex '"').Takes (quoteLiteral s).toList rest := by
    rw [toList_quoteLiteral, List.flatMap_def]
    refine takes_quotedRegex (by decide) fun w listed => ?_
    obtain ⟨c, -, rfl⟩ := List.mem_map.1 listed
    rcases escapeLiteral_cases c with ⟨same, notQuote, notSlash⟩ | ⟨same, special⟩
    · exact .inl ⟨c, same, has_plainSet notQuote notSlash⟩
    · refine .inr ⟨c, same, has_notNewline ?_⟩
      rintro rfl
      simp at special
  have listed : ("String", quotedRegex '"') ∈ lexicalRegexes := by simp [lexicalRegexes]
  refine definitionGrammar_takes (lexicalLeaf_listed (show "String" ∈ _ by decide))
    (toList_quoteLiteral s)
    (by decide) (by decide) (fun m made => Lexicon.matchLength_lexical listed taken made)
    fun p inside different u spells front => ?_
  exfalso
  rcases definitionWord_of_head inside spells with ⟨t, known, rfl, same, -⟩ | ⟨rfl, word⟩ |
    ⟨rfl, start, -⟩ | ⟨rfl, digit, -⟩ | ⟨rfl, -⟩ | ⟨-, quote⟩
  · obtain ⟨d, single, -, -, other, -⟩ := head_markTexts t known
    cases same.symm.trans single
    simp at other
  · cases (List.cons.inj word).1
  · exact absurd start (by decide)
  · cases digit
  · exact different rfl
  · cases quote

theorem unescape_escapeLiteral (cs : List Char) : unescape (cs.flatMap escapeLiteral) = cs := by
  induction cs with
  | nil => rfl
  | cons c cs ih =>
    rw [List.flatMap_cons]
    rcases escapeLiteral_cases c with ⟨same, -, notSlash⟩ | ⟨same, special⟩
    · rw [same, List.singleton_append, unescape_cons notSlash, ih]
    · have itself : unescapedChar c = c := by
        simp only [List.mem_cons, List.not_mem_nil, or_false] at special
        rcases special with rfl | rfl <;> rfl
      rw [same, List.cons_append, List.singleton_append, unescape_pair, itself, ih]

/-- The text of a literal is what is read from between its quotes. -/
theorem unquote_quoteLiteral (s : String) : unquote (quoteLiteral s).toList = s.toList := by
  rw [toList_quoteLiteral, unquote_quoted, unescape_escapeLiteral]

/-! ## Names -/

/-- A text that is read as a name: the pattern of names spells it, and it is not the word
`LookAhead`. -/
def IsRuleName (n : String) : Prop := (lexicalLeaf "Name").Spells n.toList ∧ n ≠ "LookAhead"

theorem IsRuleName.takes {n : String} (h : IsRuleName n) {rest : List Char}
    (stop : ∀ d ∈ rest.head?, namePart.has d = false) :
    definitionGrammar.lexicon.Takes ⟨lexicalLeaf "Name", n.toList⟩ rest := by
  obtain ⟨spells, other⟩ := h
  obtain ⟨c, v, whole, start, part⟩ := (lexicalWord_of_spells (by decide) spells).of_name
  rw [whole]
  exact takes_name start part (fun same => other (String.toList_injective (whole.trans same))) stop

def isNameText (n : String) : Bool :=
  match n.toList with
  | [] => false
  | c :: v => nameStart.has c && v.all namePart.has && n != "LookAhead"

theorem isRuleName_of_isNameText {n : String} (h : isNameText n = true) : IsRuleName n := by
  unfold isNameText at h
  split at h
  · cases h
  · rename_i c v text
    simp only [Bool.and_eq_true, List.all_eq_true, bne_iff_ne] at h
    obtain ⟨⟨start, part⟩, other⟩ := h
    have listed : ("Name", nameRegex) ∈ lexicalRegexes := by simp [lexicalRegexes]
    have takes : nameRegex.Takes n.toList [] := text ▸ takes_nameRegex start part (by simp)
    exact ⟨Lexicon.spells_of_takes listed takes, other⟩

theorem isRuleName_of_lookup {n source : String} (known : lexicalPatterns.lookup n = some source) :
    IsRuleName n := by
  have each : ∀ p ∈ lexicalPatterns, isNameText p.1 = true := by decide
  obtain ⟨before, behind, whole, -⟩ := List.lookup_eq_some_iff.1 known
  exact isRuleName_of_isNameText (each (n, source) (whole ▸ by simp))

/-- A token of a literal, or of a pattern with a shorter fixed beginning. -/
theorem Cut.ne_literal {lexicon : Lexicon} {patterns : List LeafPattern}
    (prepared : Lexicon.ofPatterns? patterns = some lexicon) {s : String}
    (listed : .literal s ∈ lexicon.patterns) {mode : CommentMode} {before cs : List Char}
    {tokens : List Token} {ending : ScanEnd} (h : Cut lexicon mode before cs tokens ending) :
    ∀ t ∈ tokens, ∀ p, lexicon.patterns[t.pattern]? = some p → p.weight < s.toList.length →
      t.text ≠ s := by
  induction h with
  | complete | unterminated | unexpected => simp
  | @token before gap lexeme rest found m tokens ending t _ nonempty chosen taken number _ text _ _ _
      _ ih =>
    refine List.forall_mem_cons.2 ⟨?_, ih⟩
    rintro p known lighter rfl
    obtain ⟨⟨offered, -⟩, best⟩ := (Lexicon.longestMatch_eq_some_iff prepared).1 chosen
    obtain ⟨id, m', numbered, made⟩ := Lexicon.exists_numbered prepared listed
    have same : t.text.toList = lexeme := by rw [text, String.toList_ofList]
    have offers : lexicon.Offers (lexeme ++ rest) ⟨id, m', lexeme.length⟩ :=
      ⟨numbered, same ▸ Lexicon.matchLength_literal made, List.length_pos_iff.2 nonempty⟩
    have seen : ¬ m'.Overlooked (lexeme ++ rest) := by
      rintro ⟨loose, -⟩
      rw [Matcher.pattern_eq made] at loose
      cases loose
    have pattern : Matcher.ofPattern? p = some m.matcher := by
      obtain ⟨q, made'⟩ := Lexicon.ofPattern?_of_numbered prepared offered.numbered
      rw [number, Lexicon.patterns, List.getElem?_map, offered.numbered, Option.map_some,
        Matcher.pattern_eq made'] at known
      cases known
      exact made'
    have heavy := best _ ⟨offers, seen⟩
    have length : m'.head.length = lexeme.length := by
      rw [Matcher.length_head made, LeafPattern.weight, same]
    rw [same] at lighter
    simp only [Lexicon.Match.AtLeast, taken, length, Matcher.length_head pattern] at heavy
    omega

/-- What the tokens of definitions are spelled like. -/
structure Token.IsDefinitionToken (t : Token) : Prop where
  mark : ∀ {s}, definitionGrammar.lexicon.patterns[t.pattern]? = some (.literal s) → t.text = s
  name : definitionGrammar.lexicon.patterns[t.pattern]? = some (lexicalLeaf "Name") →
    t.name = "Name" ∧ IsRuleName t.text
  quoted : ∀ {n}, n = "String" ∨ n = "QuotedString" →
    definitionGrammar.lexicon.patterns[t.pattern]? = some (lexicalLeaf n) → t.name = n
  count : definitionGrammar.lexicon.patterns[t.pattern]? = some (lexicalLeaf "Number") →
    (lexicalLeaf "Number").Spells t.text.toList

theorem isDefinitionToken_of_scan {text : String} :
    ∀ t ∈ (definitionGrammar.scan text).tokens, t.IsDefinitionToken := by
  intro t listed
  obtain ⟨patterns, prepared⟩ := definitionGrammar_prepared
  have cut := Lexicon.scan_cut prepared definitionGrammar.comments text
  obtain ⟨p, known, name, spelled⟩ := cut.spelled prepared t listed
  have word : .literal "LookAhead" ∈ definitionGrammar.lexicon.patterns :=
    definitionLeaves_subset _ (symbol_listed (show "LookAhead" ∈ _ by decide))
  refine ⟨fun is => ?_, fun is => ?_, fun _ is => ?_, fun is => ?_⟩ <;> cases known.symm.trans is
  · exact String.toList_injective spelled
  · have lighter : (lexicalLeaf "Name").weight < "LookAhead".toList.length := by
      rw [weight_name]
      decide
    exact ⟨name, spelled, cut.ne_literal prepared word t listed _ known lighter⟩
  · exact name
  · exact spelled

end Rowlang
