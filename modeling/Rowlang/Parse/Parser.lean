import Rowlang.Parse.LookAhead
import Rowlang.Parse.Tree

/-!
# Parsing

A grammar is run by recursive descent over the tokens of a text. An alternative is given up for the
next only while it has consumed nothing; a sequence that has consumed tokens and cannot go on is an
error. What is matched is handed to a `TreeBuilder`, the nodes of each named rule together.

* `Parser.tryParse` : the nodes that a rule makes here, or nothing if it does not match;
* `Parser.rounds` : the nodes of as many rounds as match, given a single round;
* `Parser.parseRule`, `Parser.parse` : the parse of a whole text;
* `Grammar.parseTree` : the syntax tree of a text.

Named rules may nest `Parser.limit` deep. The recursion descends in the limit that is left, then in
the number of the rule (`Grammar.rank`); rounds descend in the tokens that are left.
-/

namespace Rowlang
open Rowlang.Text

/-- The nesting of named rules that is allowed by default. -/
def defaultLimit : Nat := 200

/-- A grammar together with the builder of results and the allowed nesting. -/
structure Parser (σ ν : Type) where
  grammar : Grammar
  builder : TreeBuilder σ ν
  limit : Nat

/-- What changes in the course of a parse: the tokens left and the builder's state. -/
structure ParseState (σ : Type) where
  stream : Stream
  building : σ

namespace Parser

variable {σ ν : Type}

/-- The outcome of trying a rule: its nodes, nothing if it does not match here, or an error. -/
abbrev Outcome (ν : Type) := Except ParseError (Option (List ν))

/-- The error of missing the rule `expected` within the rule `within`. -/
def missing (p : Parser σ ν) (within : Option Nat) (expected : Nat) (s : Stream) :
    ParseError × Stream :=
  match s.peek 0 with
  | .error e => (.lex e, s)
  | .ok (found, s) =>
    let place := match found with
      | some t => t.start
      | none => s.ending.place
    (.syntaxError (p.grammar.ruleName (within.getD expected)) (p.grammar.describe expected)
      found place, s)

/-- The nodes of as many rounds as match, each consuming some token but the last, `one` being a single
round. -/
def rounds (one : ParseState σ → Outcome ν × ParseState σ) (s : ParseState σ) :
    Except ParseError (List ν) × ParseState σ :=
  match one s with
  | (.error e, s₁) => (.error e, s₁)
  | (.ok none, s₁) => (.ok [], s₁)
  | (.ok (some nodes), s₁) =>
    if s₁.stream.rest.length < s.stream.rest.length then
      match rounds one s₁ with
      | (.error e, s₂) => (.error e, s₂)
      | (.ok more, s₂) => (.ok (nodes ++ more), s₂)
    else (.ok nodes, s₁)
termination_by s.stream.rest.length

/-- Tries the rule `id`, with `depth` named rules open, the innermost of them `within`. -/
def tryParse (p : Parser σ ν) (depth : Nat) (within : Option Nat) (id : Nat) (s : ParseState σ) :
    Outcome ν × ParseState σ :=
  match h : p.grammar.shape? id with
  | none => (.ok none, s)
  | some (.token pattern) =>
    match s.stream.peek 0 with
    | .error e => (.error (.lex e), s)
    | .ok (some t, stream) =>
      if t.pattern = pattern then
        (.ok (some [p.builder.token t]), { s with stream := stream.advance })
      else (.ok none, { s with stream })
    | .ok (none, stream) => (.ok none, { s with stream })
  | some (.seq left right) =>
    have := p.grammar.rank_part_lt (p.limit - depth) h (c := left) (by simp [Shape.parts])
    have := p.grammar.rank_part_lt (p.limit - depth) h (c := right) (by simp [Shape.parts])
    match p.grammar.shape? left with
    | some (.ahead count) =>
      match p.grammar.lookAhead p.limit depth right count 0 s.stream with
      | (.error e, stream) => (.error e, { s with stream })
      | (.ok none, stream) => (.ok none, { s with stream })
      | (.ok (some _), stream) => p.tryParse depth within right { s with stream }
    | _ =>
      match p.tryParse depth within left s with
      | (.error e, s₁) => (.error e, s₁)
      | (.ok none, s₁) => (.ok none, s₁)
      | (.ok (some nodes), s₁) =>
        match p.tryParse depth within right s₁ with
        | (.error e, s₂) => (.error e, s₂)
        | (.ok (some more), s₂) => (.ok (some (nodes ++ more)), s₂)
        | (.ok none, s₂) =>
          if s₂.stream.rest.length = s.stream.rest.length then (.ok none, s₂)
          else
            let (e, stream) := p.missing within right s₂.stream
            (.error e, { s₂ with stream })
  | some (.alt left right) =>
    have := p.grammar.rank_part_lt (p.limit - depth) h (c := left) (by simp [Shape.parts])
    have := p.grammar.rank_part_lt (p.limit - depth) h (c := right) (by simp [Shape.parts])
    match p.tryParse depth within left s with
    | (.error e, s) => (.error e, s)
    | (.ok (some nodes), s) => (.ok (some nodes), s)
    | (.ok none, s) => p.tryParse depth within right s
  | some (.opt child) =>
    have := p.grammar.rank_part_lt (p.limit - depth) h (c := child) (by simp [Shape.parts])
    match p.tryParse depth within child s with
    | (.error e, s) => (.error e, s)
    | (.ok nodes, s) => (.ok (some (nodes.getD [])), s)
  | some (.star child) =>
    have := p.grammar.rank_part_lt (p.limit - depth) h (c := child) (by simp [Shape.parts])
    match rounds (p.tryParse depth within child) s with
    | (.error e, s) => (.error e, s)
    | (.ok nodes, s) => (.ok (some nodes), s)
  | some (.plus child) =>
    have := p.grammar.rank_part_lt (p.limit - depth) h (c := child) (by simp [Shape.parts])
    match p.tryParse depth within child s with
    | (.error e, s) => (.error e, s)
    | (.ok none, s) => (.ok none, s)
    | (.ok (some first), s) =>
      match rounds (p.tryParse depth within child) s with
      | (.error e, s) => (.error e, s)
      | (.ok more, s) => (.ok (some (first ++ more)), s)
  | some (.ahead _) => (.ok (some []), s)
  | some (.guarded child count) =>
    have := p.grammar.rank_part_lt (p.limit - depth) h (c := child) (by simp [Shape.parts])
    match p.grammar.lookAhead p.limit depth child count 0 s.stream with
    | (.error e, stream) => (.error e, { s with stream })
    | (.ok none, stream) => (.ok none, { s with stream })
    | (.ok (some _), stream) => p.tryParse depth within child { s with stream }
  | some (.named body) =>
    if deeper : depth < p.limit then
      have := p.grammar.rank_body_lt deeper id body
      match s.stream.place? with
      | .error e => (.error (.lex e), s)
      | .ok (place, stream) =>
        match p.tryParse (depth + 1) (some id) body { s with stream } with
        | (.error e, s) => (.error e, s)
        | (.ok none, s) => (.ok none, s)
        | (.ok (some children), s) =>
          let name := p.grammar.ruleName id
          match p.builder.rule name children s.building with
          | (.ok node, building) => (.ok (some [node]), { s with building })
          | (.error reason, building) =>
            (.error (.rejected name reason place.line place.column), { s with building })
    else
      let (e, stream) := p.grammar.tooDeepAt p.limit id s.stream
      (.error e, { s with stream })
termination_by p.grammar.rank (p.limit - depth) id

/-- Parses all that is left by the rule `id`. A rule without a name that makes no node, or several,
gives a node under its written form. -/
def parseAll (p : Parser σ ν) (id : Nat) (s : ParseState σ) : Except ParseError ν × ParseState σ :=
  match p.tryParse 0 none id s with
  | (.error e, s) => (.error e, s)
  | (.ok none, s) =>
    let (e, stream) := p.missing none id s.stream
    (.error e, { s with stream })
  | (.ok (some nodes), s) =>
    match s.stream.peek 0 with
    | .error e => (.error (.lex e), s)
    | .ok (some t, stream) => (.error (.trailingInput t), { s with stream })
    | .ok (none, stream) =>
      match nodes with
      | [node] => (.ok node, { s with stream })
      | nodes =>
        let name := p.grammar.ruleName id
        match p.builder.rule name nodes s.building with
        | (.ok node, building) => (.ok node, ⟨stream, building⟩)
        | (.error reason, building) => (.error (.rejected name reason 1 1), ⟨stream, building⟩)

def parseRule (p : Parser σ ν) (id : Nat) (text : String) (init : σ) :
    Except ParseError ν × ParseState σ :=
  p.parseAll id ⟨.ofScan (p.grammar.scan text), init⟩

def parse (p : Parser σ ν) (text : String) (init : σ) : Except ParseError ν × ParseState σ :=
  p.parseRule p.grammar.start text init

end Parser

def Grammar.parseTree (g : Grammar) (text : String) : Except ParseError ParseTree :=
  (Parser.parse ⟨g, .collector, defaultLimit⟩ text ()).1

end Rowlang
