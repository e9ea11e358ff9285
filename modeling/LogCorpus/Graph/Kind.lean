/-
Kinds of graph nodes and edges.

Every kind has a name, a numeric code for interchange and an ordinal, its place
in the list of all kinds.  Node codes leave gaps, so the two numbers differ.
-/

namespace LogCorpus

/-- What a graph node stands for. -/
inductive NodeKind where
  | token
  | astElement
  | commentLine
  | commentBlock
  | commentJavadoc
  | identifierToken
  | fakeAst
  | symbol
  | symbolType
  | symbolVar
  | symbolMethod
  | type
  | methodSignature
  | astLeaf
  | log
deriving Repr, DecidableEq

namespace NodeKind

/-- Every node kind, in ordinal order. -/
def all : List NodeKind :=
  [token, astElement, commentLine, commentBlock, commentJavadoc,
    identifierToken, fakeAst, symbol, symbolType, symbolVar, symbolMethod,
    type, methodSignature, astLeaf, log]

/-- The place of a kind in `all`. -/
def ordinal : NodeKind → Nat
  | token => 0
  | astElement => 1
  | commentLine => 2
  | commentBlock => 3
  | commentJavadoc => 4
  | identifierToken => 5
  | fakeAst => 6
  | symbol => 7
  | symbolType => 8
  | symbolVar => 9
  | symbolMethod => 10
  | type => 11
  | methodSignature => 12
  | astLeaf => 13
  | log => 14

/-- The interchange code of a kind; 6 and 16 belong to no kind. -/
def code : NodeKind → Nat
  | token => 1
  | astElement => 2
  | commentLine => 3
  | commentBlock => 4
  | commentJavadoc => 5
  | identifierToken => 7
  | fakeAst => 8
  | symbol => 9
  | symbolType => 10
  | symbolVar => 11
  | symbolMethod => 12
  | type => 13
  | methodSignature => 14
  | astLeaf => 15
  | log => 17

/-- The written name of a kind. -/
def name : NodeKind → String
  | token => "TOKEN"
  | astElement => "AST_ELEMENT"
  | commentLine => "COMMENT_LINE"
  | commentBlock => "COMMENT_BLOCK"
  | commentJavadoc => "COMMENT_JAVADOC"
  | identifierToken => "IDENTIFIER_TOKEN"
  | fakeAst => "FAKE_AST"
  | symbol => "SYMBOL"
  | symbolType => "SYMBOL_TYPE"
  | symbolVar => "SYMBOL_VAR"
  | symbolMethod => "SYMBOL_METHOD"
  | type => "TYPE"
  | methodSignature => "METHOD_SIGNATURE"
  | astLeaf => "AST_LEAF"
  | log => "LOG"

/-- The kind with this interchange code. -/
def ofCode? (code : Nat) : Option NodeKind :=
  all.find? (fun kind => kind.code = code)

/-- The kind with this name. -/
def ofName? (text : String) : Option NodeKind :=
  all.find? (fun kind => kind.name = text)

theorem all_getElem?_ordinal (kind : NodeKind) :
    all[kind.ordinal]? = some kind := by
  cases kind <;> rfl

theorem ofCode?_code (kind : NodeKind) : ofCode? kind.code = some kind := by
  cases kind <;> decide

theorem ofName?_name (kind : NodeKind) : ofName? kind.name = some kind := by
  cases kind <;> decide

end NodeKind

/-- What a graph edge says about its two endpoints. -/
inductive EdgeKind where
  | associatedToken
  | nextToken
  | astChild
  | none
  | lastWrite
  | lastUse
  | computedFrom
  | returnsTo
  | formalArgName
  | guardedBy
  | guardedByNegation
  | lastLexicalUse
  | comment
  | associatedSymbol
  | hasType
  | assignableTo
  | methodSignature
deriving Repr, DecidableEq

namespace EdgeKind

/-- Every edge kind, in the order of their codes. -/
def all : List EdgeKind :=
  [associatedToken, nextToken, astChild, none, lastWrite, lastUse,
    computedFrom, returnsTo, formalArgName, guardedBy, guardedByNegation,
    lastLexicalUse, comment, associatedSymbol, hasType, assignableTo,
    methodSignature]

/-- The place of a kind in `all`. -/
def ordinal : EdgeKind → Nat
  | associatedToken => 0
  | nextToken => 1
  | astChild => 2
  | none => 3
  | lastWrite => 4
  | lastUse => 5
  | computedFrom => 6
  | returnsTo => 7
  | formalArgName => 8
  | guardedBy => 9
  | guardedByNegation => 10
  | lastLexicalUse => 11
  | comment => 12
  | associatedSymbol => 13
  | hasType => 14
  | assignableTo => 15
  | methodSignature => 16

/-- Kinds are ordered by their place in `all`. -/
instance : Ord EdgeKind :=
  ⟨compareOn ordinal⟩

/-- The interchange code of a kind: edge codes count from one without gaps. -/
def code (kind : EdgeKind) : Nat :=
  kind.ordinal + 1

/-- The written name of a kind. -/
def name : EdgeKind → String
  | associatedToken => "ASSOCIATED_TOKEN"
  | nextToken => "NEXT_TOKEN"
  | astChild => "AST_CHILD"
  | none => "NONE"
  | lastWrite => "LAST_WRITE"
  | lastUse => "LAST_USE"
  | computedFrom => "COMPUTED_FROM"
  | returnsTo => "RETURNS_TO"
  | formalArgName => "FORMAL_ARG_NAME"
  | guardedBy => "GUARDED_BY"
  | guardedByNegation => "GUARDED_BY_NEGATION"
  | lastLexicalUse => "LAST_LEXICAL_USE"
  | comment => "COMMENT"
  | associatedSymbol => "ASSOCIATED_SYMBOL"
  | hasType => "HAS_TYPE"
  | assignableTo => "ASSIGNABLE_TO"
  | methodSignature => "METHOD_SIGNATURE"

/-- The kind with this interchange code. -/
def ofCode? (code : Nat) : Option EdgeKind :=
  all.find? (fun kind => kind.code = code)

/-- The kind with this name. -/
def ofName? (text : String) : Option EdgeKind :=
  all.find? (fun kind => kind.name = text)

theorem all_getElem?_ordinal (kind : EdgeKind) :
    all[kind.ordinal]? = some kind := by
  cases kind <;> rfl

theorem ofCode?_code (kind : EdgeKind) : ofCode? kind.code = some kind := by
  cases kind <;> decide

theorem ofName?_name (kind : EdgeKind) : ofName? kind.name = some kind := by
  cases kind <;> decide

end EdgeKind

end LogCorpus
