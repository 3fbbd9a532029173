import FundsTransfer.Yaml.Token

/-!
# The values of a YAML text

The tokens of a text make a tree of nodes.  As with JSON, reading does not stop at the
first mistake with nothing in hand: the tree holds everything up to the mistake, and a
list or mapping that is cut short knows why.  A consumer that goes through the tree in
the order of the text so meets whichever is first, the mistake or a complaint of its
own.

A reference to an anchor stays a reference, because it may stand inside the very node
that it refers to.  The document knows the node of each anchor.
-/

namespace FundsTransfer.Yaml

/-- A value as read, up to the first mistake in it. -/
inductive Node where
  /-- A scalar. -/
  | scalar (mark : Mark) (s : Scalar)
  /-- A list, and why it is cut short if it is. -/
  | sequence (mark : Mark) (items : List Node) (cut : Option Problem)
  /-- Keys and values, and why there are no more if they are cut short. -/
  | mapping (mark : Mark) (members : List (Node × Node)) (cut : Option Problem)
  /-- A reference to the anchor of a number. -/
  | reference (anchor : Nat)
  /-- Nothing, because the text holds nothing. -/
  | void (mark : Mark)
  /-- A mistake right at the start. -/
  | mistake (problem : Problem)

/-- What comes behind the first document of a text. -/
inductive Ending where
  /-- Nothing. -/
  | clean
  /-- Another document. -/
  | another
  /-- A mistake. -/
  | broken (problem : Problem)

/-- A document. -/
structure Document where
  /-- Its value. -/
  root : Node
  /-- The nodes of the anchors that were read to their end. -/
  anchors : List (Nat × Node)
  /-- What comes behind it. -/
  ending : Ending

namespace Node

mutual

/-- The first mistake in a value. -/
def problem? : Node → Option Problem
  | scalar _ _ => none
  | sequence _ items cut => (itemsProblem? items).or cut
  | mapping _ members cut => (membersProblem? members).or cut
  | reference _ => none
  | void _ => none
  | mistake p => some p

/-- The first mistake in some values. -/
def itemsProblem? : List Node → Option Problem
  | [] => none
  | n :: rest => n.problem?.or (itemsProblem? rest)

/-- The first mistake in some keys and values. -/
def membersProblem? : List (Node × Node) → Option Problem
  | [] => none
  | (k, n) :: rest => (k.problem?.or n.problem?).or (membersProblem? rest)

end

end Node

/-- Tokens on their way to becoming a tree. -/
structure Reader where
  /-- The tokens that are left. -/
  tokens : List Token
  /-- What is wrong when there are no more of them. -/
  problem : Problem
  /-- What the handles of tags stand for. -/
  handles : List (String × String)
  /-- The anchors by name, latest first. -/
  names : List (String × Nat)
  /-- The number of anchors. -/
  count : Nat
  /-- The nodes of the anchors that were read to their end. -/
  anchors : List (Nat × Node)

/-- What is left after reading a part, or the mistake that was met. -/
abbrev Rest := Except Problem Reader

namespace Reader

/-- The next token. -/
def peek (r : Reader) : Except Problem Token :=
  match r.tokens with
  | t :: _ => .ok t
  | [] => .error r.problem

/-- The reader behind the next token. -/
def skip (r : Reader) : Reader := { r with tokens := r.tokens.drop 1 }

/-- The handles that need not be given. -/
def standardHandles : List (String × String) := [("!", "!"), ("!!", "tag:yaml.org,2002:")]

/-- What stands before a value: an anchor, a tag, both in either order, or neither. -/
structure Properties where
  /-- Where the first of them starts. -/
  start : Mark
  /-- The name of the anchor. -/
  anchor : Option String
  /-- The tag. -/
  tag : Option String

/-- The tag of a handle and a name. -/
def resolveTag (r : Reader) (handle : Option String) (name : String) (start place : Mark) :
    Except Problem String :=
  match handle with
  | none => .ok name
  | some h =>
    match (r.handles ++ standardHandles).lookup h with
    | some stem => .ok (stem ++ name)
    | none => .error (.mistaken .unknownHandle place (some ⟨.node, start⟩))

/-- Reads the properties before a value.  A mistake in the tag shows only behind both. -/
def readProperties (r : Reader) : Except Problem (Properties × Reader) := do
  let first ← r.peek
  let start := first.start
  match first.kind with
  | .anchor name =>
    let r := r.skip
    let second ← r.peek
    match second.kind with
    | .tag handle tag =>
      let r := r.skip
      let _ ← r.peek
      return (⟨start, some name, some (← r.resolveTag handle tag start second.start)⟩, r)
    | _ => return (⟨start, some name, none⟩, r)
  | .tag handle tag =>
    let r := r.skip
    let second ← r.peek
    match second.kind with
    | .anchor name =>
      let r := r.skip
      let _ ← r.peek
      return (⟨start, some name, some (← r.resolveTag handle tag start first.start)⟩, r)
    | _ => return (⟨start, none, some (← r.resolveTag handle tag start first.start)⟩, r)
  | _ => return (⟨start, none, none⟩, r)

/-- The reader with a number for an anchor. -/
def declare (r : Reader) (anchor : Option String) : Reader :=
  match anchor with
  | some name => { r with names := (name, r.count) :: r.names, count := r.count + 1 }
  | none => r

/-- The reader with the node of an anchor. -/
def assign (r : Reader) (anchor : Option Nat) (n : Node) : Reader :=
  match anchor with
  | some id => { r with anchors := (id, n) :: r.anchors }
  | none => r

/-- A scalar that is not there. -/
def emptyScalar (mark : Mark) (tag : Option String) : Node := .scalar mark ⟨"", .plain, tag⟩

/-- The tag of a scalar.  The mark that stands alone says nothing. -/
def scalarTag (tag : Option String) : Option String := tag.filter (· != "!")

/-- A value that could not be read. -/
def failed (p : Problem) : Node × Rest := (.mistake p, .error p)

/-- Whether a token is one of some kinds. -/
def isOneOf (kinds : List TokenKind) (t : Token) : Bool := kinds.contains t.kind

/-- The mistake of a token in a collection that started at a mark. -/
def unexpected (what : Mistake) (t : Token) (activity : Activity) (start : Mark) : Problem :=
  .mistaken what t.start (some ⟨activity, start⟩)

/-- A node put before more nodes. -/
def consItem (n : Node) : List Node × Rest → List Node × Rest
  | (ns, rest) => (n :: ns, rest)

/-- A key and a value put before more of them. -/
def consMember (k n : Node) : List (Node × Node) × Rest → List (Node × Node) × Rest
  | (ms, rest) => ((k, n) :: ms, rest)

/-- The mistake that a rest stands for. -/
def cutOf : Rest → Option Problem
  | .ok _ => none
  | .error p => some p

/-- Gives a node to its anchor, when it was read to its end. -/
def finish (anchor : Option Nat) (n : Node) (rest : Rest) : Node × Rest :=
  (n, rest.map (·.assign anchor n))

mutual

/-- Reads a value.  `block` says whether a block may start here, and `dashes` whether a list may
start with no indentation.  Each level and each item takes at least one token, which bounds both. -/
def readNode (block dashes : Bool) : (fuel : Nat) → Reader → Node × Rest
  | 0, r => failed r.problem
  | fuel + 1, r =>
    match r.peek with
    | .error p => failed p
    | .ok t =>
      match t.kind with
      | .reference name =>
        match r.names.lookup name with
        | some id => (.reference id, .ok r.skip)
        | none => failed (.unknownAnchor t.start)
      | _ =>
        match r.readProperties with
        | .error p => failed p
        | .ok (properties, r) => readContent block dashes properties fuel r

/-- Reads a value behind its properties. -/
def readContent (block dashes : Bool) (properties : Properties) :
    (fuel : Nat) → Reader → Node × Rest
  | 0, r => failed r.problem
  | fuel + 1, r =>
    match r.peek with
    | .error p => failed p
    | .ok t =>
      let mark := properties.start
      let anchor := properties.anchor.map fun _ => r.count
      let declared := r.declare properties.anchor
      let sequence := fun ((items, rest) : List Node × Rest) =>
        finish anchor (.sequence mark items (cutOf rest)) rest
      let mapping := fun ((members, rest) : List (Node × Node) × Rest) =>
        finish anchor (.mapping mark members (cutOf rest)) rest
      match t.kind with
      | .scalar text style =>
        finish anchor (.scalar mark ⟨text, style, scalarTag properties.tag⟩) (.ok declared.skip)
      | .flowSequence => sequence (readFlowItems t.start true fuel declared.skip)
      | .flowMapping => mapping (readFlowMembers t.start true fuel declared.skip)
      | kind =>
        if kind = .item ∧ dashes then sequence (readDashes fuel declared)
        else if kind = .blockSequence ∧ block then
          sequence (readBlockItems t.start fuel declared.skip)
        else if kind = .blockMapping ∧ block then
          mapping (readBlockMembers t.start fuel declared.skip)
        else if properties.anchor.isSome || properties.tag.isSome then
          finish anchor (emptyScalar mark properties.tag) (.ok declared)
        else
          failed (unexpected .noContent t (if block then .blockNode else .flowNode) mark)

/-- Reads a value, or takes an empty one at a mark when a token of some kinds is next. -/
def readUnless (kinds : List TokenKind) (mark : Option Mark) (block dashes : Bool) :
    (fuel : Nat) → Reader → Node × Rest
  | 0, r => failed r.problem
  | fuel + 1, r =>
    match r.peek with
    | .error p => failed p
    | .ok t =>
      if isOneOf kinds t then (emptyScalar (mark.getD t.start) none, .ok r)
      else readNode block dashes fuel r

/-- Reads the items of a list in a block. -/
def readBlockItems (start : Mark) : (fuel : Nat) → Reader → List Node × Rest
  | 0, r => ([], .error r.problem)
  | fuel + 1, r =>
    match r.peek with
    | .error p => ([], .error p)
    | .ok t =>
      match t.kind with
      | .item =>
        match readUnless [.item, .blockEnd] (some t.stop) true false fuel r.skip with
        | (n, .ok r) => consItem n (readBlockItems start fuel r)
        | (n, .error p) => ([n], .error p)
      | .blockEnd => ([], .ok r.skip)
      | _ => ([], .error (unexpected .noDash t .blockSequence start))

/-- Reads the items of a list with no indentation. -/
def readDashes : (fuel : Nat) → Reader → List Node × Rest
  | 0, r => ([], .error r.problem)
  | fuel + 1, r =>
    match r.peek with
    | .error p => ([], .error p)
    | .ok t =>
      match t.kind with
      | .item =>
        match readUnless [.item, .key, .value, .blockEnd] (some t.stop) true false fuel r.skip with
        | (n, .ok r) => consItem n (readDashes fuel r)
        | (n, .error p) => ([n], .error p)
      | _ => ([], .ok r)

/-- Reads the keys and values of a block. -/
def readBlockMembers (start : Mark) : (fuel : Nat) → Reader → List (Node × Node) × Rest
  | 0, r => ([], .error r.problem)
  | fuel + 1, r =>
    match r.peek with
    | .error p => ([], .error p)
    | .ok t =>
      match t.kind with
      | .key =>
        match readUnless [.key, .value, .blockEnd] (some t.stop) true true fuel r.skip with
        | (k, .error p) => ([(k, .mistake p)], .error p)
        | (k, .ok r) =>
          match readBlockValue fuel r with
          | (n, .ok r) => consMember k n (readBlockMembers start fuel r)
          | (n, .error p) => ([(k, n)], .error p)
      | .blockEnd => ([], .ok r.skip)
      | _ => ([], .error (unexpected .noKey t .blockMapping start))

/-- Reads the value of a key in a block. -/
def readBlockValue : (fuel : Nat) → Reader → Node × Rest
  | 0, r => failed r.problem
  | fuel + 1, r =>
    match r.peek with
    | .error p => failed p
    | .ok t =>
      match t.kind with
      | .value => readUnless [.key, .value, .blockEnd] (some t.stop) true true fuel r.skip
      | _ => (emptyScalar t.start none, .ok r)

/-- Reads the items of a list between brackets. -/
def readFlowItems (start : Mark) (first : Bool) : (fuel : Nat) → Reader → List Node × Rest
  | 0, r => ([], .error r.problem)
  | fuel + 1, r =>
    match r.peek with
    | .error p => ([], .error p)
    | .ok t =>
      if t.kind = .flowSequenceEnd then ([], .ok r.skip)
      else if !first && t.kind ≠ .comma then
        ([], .error (unexpected .noCommaOrBracket t .flowSequence start))
      else
        let r := if first then r else r.skip
        match r.peek with
        | .error p => ([], .error p)
        | .ok t =>
          if t.kind = .flowSequenceEnd then ([], .ok r.skip)
          else
            match if t.kind = .key then readPair t.start fuel r.skip
              else readNode false false fuel r with
            | (n, .ok r) => consItem n (readFlowItems start false fuel r)
            | (n, .error p) => ([n], .error p)

/-- Reads an item of a list between brackets that is a key with its value. -/
def readPair (start : Mark) : (fuel : Nat) → Reader → Node × Rest
  | 0, r => failed r.problem
  | fuel + 1, r =>
    match r.peek with
    | .error p => (.mapping start [] (some p), .error p)
    | .ok t =>
      match if isOneOf [.value, .comma, .flowSequenceEnd] t then
          (emptyScalar t.stop none, .ok r.skip)
        else readNode false false fuel r with
      | (k, .error p) => (.mapping start [(k, .mistake p)] (some p), .error p)
      | (k, .ok r) =>
        let (n, rest) := readFlowValue [.comma, .flowSequenceEnd] fuel r
        (.mapping start [(k, n)] (cutOf rest), rest)

/-- Reads the value of a key between brackets, if it has one. -/
def readFlowValue (ends : List TokenKind) : (fuel : Nat) → Reader → Node × Rest
  | 0, r => failed r.problem
  | fuel + 1, r =>
    match r.peek with
    | .error p => failed p
    | .ok t =>
      match t.kind with
      | .value => readUnless ends none false false fuel r.skip
      | _ => (emptyScalar t.start none, .ok r)

/-- Reads keys and values between braces. -/
def readFlowMembers (start : Mark) (first : Bool) :
    (fuel : Nat) → Reader → List (Node × Node) × Rest
  | 0, r => ([], .error r.problem)
  | fuel + 1, r =>
    match r.peek with
    | .error p => ([], .error p)
    | .ok t =>
      if t.kind = .flowMappingEnd then ([], .ok r.skip)
      else if !first && t.kind ≠ .comma then
        ([], .error (unexpected .noCommaOrBrace t .flowMapping start))
      else
        let r := if first then r else r.skip
        match r.peek with
        | .error p => ([], .error p)
        | .ok t =>
          if t.kind = .flowMappingEnd then ([], .ok r.skip)
          else if t.kind = .key then
            match readUnless [.value, .comma, .flowMappingEnd] none false false fuel r.skip with
            | (k, .error p) => ([(k, .mistake p)], .error p)
            | (k, .ok r) =>
              match readFlowValue [.comma, .flowMappingEnd] fuel r with
              | (n, .ok r) => consMember k n (readFlowMembers start false fuel r)
              | (n, .error p) => ([(k, n)], .error p)
          else
            match readNode false false fuel r with
            | (k, .error p) => ([(k, .mistake p)], .error p)
            | (k, .ok r) =>
              match r.peek with
              | .error p => ([(k, .mistake p)], .error p)
              | .ok t =>
                consMember k (emptyScalar t.start none) (readFlowMembers start false fuel r)

end

/-! ## Documents -/

/-- Reads directives.  `versioned` says whether the version was given. -/
def readDirectives (versioned : Bool) : (fuel : Nat) → Reader → Except Problem Reader
  | 0, r => .ok r
  | fuel + 1, r => do
    let t ← r.peek
    match t.kind with
    | .version major minor =>
      if versioned then throw (.mistaken .twoVersions t.start none)
      if ¬(major = 1 ∧ (minor = 1 ∨ minor = 2)) then throw (.mistaken .otherVersion t.start none)
      readDirectives true fuel r.skip
    | .handle handle stem =>
      if (r.handles.lookup handle).isSome then throw (.mistaken .twoHandles t.start none)
      readDirectives versioned fuel { r.skip with handles := (handle, stem) :: r.handles }
    | _ => return r

/-- Whether a token belongs to the frame of a document and not to its value. -/
def isFrame (t : Token) : Bool :=
  match t.kind with
  | .version _ _ => true
  | .handle _ _ => true
  | .documentStart => true
  | .documentEnd => true
  | .textEnd => true
  | _ => false

/-- Reads the value of a document that says where it starts. -/
def readMarkedRoot (r : Reader) (fuel : Nat) : Node × Rest :=
  match r.readDirectives false fuel with
  | .error p => failed p
  | .ok r =>
    match r.peek with
    | .error p => failed p
    | .ok t =>
      if t.kind ≠ .documentStart then failed (.mistaken .noDocumentStart t.start none)
      else
        match r.skip.peek with
        | .error p => failed p
        | .ok t =>
          if isFrame t then (emptyScalar t.start none, .ok r.skip)
          else readNode true false fuel r.skip

/-- Reads the value of the first document. -/
def readRoot (r : Reader) (fuel : Nat) : Node × Rest :=
  match r.peek with
  | .error p => failed p
  | .ok t =>
    match t.kind with
    | .textEnd => (.void t.start, .ok r)
    | .version _ _ => r.readMarkedRoot fuel
    | .handle _ _ => r.readMarkedRoot fuel
    | .documentStart => r.readMarkedRoot fuel
    | _ => readNode true false fuel r

/-- What comes behind a document. -/
def ending (r : Reader) : Ending :=
  match r.peek with
  | .error p => .broken p
  | .ok _ =>
    match r.tokens.dropWhile (·.kind = .documentEnd) with
    | [t] => if t.kind = .textEnd then .clean else .another
    | _ => .another

end Reader

/-- The first document of a text. -/
def Document.ofText (text : String) : Document :=
  let (tokens, problem) := Token.ofText text
  let problem := problem.getD (.mistaken .noDocumentStart ⟨0, 0, 0⟩ none)
  match Reader.readRoot ⟨tokens, problem, [], [], 0, []⟩ (8 * tokens.length + 8) with
  | (root, .ok r) => ⟨root, r.anchors, r.ending⟩
  | (root, .error p) => ⟨root, [], .broken p⟩

end FundsTransfer.Yaml
