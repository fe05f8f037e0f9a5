import SchemaLedger.Yaml.Node.Basic
import SchemaLedger.Yaml.Token.Scan

/-!
# From tokens to a document

The tokens are taken one after the other by a machine with a stack of collections that are
still open. The top of the stack is either between two parts, or has just read the mark of
a part (`fresh`), which may then stay empty, or has read an anchor or tag and is bound to
have one. A token that fits nowhere ends the document: what is open stays open, and the
token is what the text is malformed at.

Anchors are numbered by how many names there were before. A name that is given again gets
a new number under the same rule, which the next new name will share with it.
-/

namespace SchemaLedger.Yaml

namespace Compose

/-- What stands in front of a node, and where the node begins as far as messages go: its
first property, or the token that opens a collection. `undefined` is where a tag stands whose
handle has no meaning. -/
structure Properties where
  mark : Mark
  anchor : Option Nat := none
  tag : Option Tag := none
  undefined : Option Mark := none

/-- The ways of writing a sequence; a compact one has no indentation of its own. -/
inductive Items where
  | block
  | compact
  | flow
  deriving DecidableEq

/-- The ways of writing a mapping; a pair is an entry in a flow sequence. -/
inductive Entries where
  | block
  | flow
  | pair
  deriving DecidableEq

/-- An open collection and the part it will get next; what is done is in reverse order. -/
inductive Frame where
  | item (form : Items) (p : Properties) (done : List Node)
  | key (form : Entries) (p : Properties) (done : List (Node × Node))
  | value (form : Entries) (p : Properties) (done : List (Node × Node)) (key : Node)
  | bareKey (p : Properties) (done : List (Node × Node))
  | bareValue (p : Properties) (done : List (Node × Node)) (key : Node)
  | pairEnd (p : Properties) (key value : Node)

/-- Where the top of the stack stands. -/
inductive Stage where
  | between
  | fresh
  | bound (p : Properties)

/-- The state while a document is read. -/
structure State where
  stack : List Frame
  stage : Stage := .fresh
  names : List (String × Nat) := []
  handles : List (String × Option String) := []
  root : Option Node := none

/-! ## Putting parts together -/

/-- Puts a finished node in its place. -/
def place (s : State) (n : Node) : State :=
  match s.stack with
  | [] => { s with root := some n, stage := .between }
  | .item form p done :: rest =>
    { s with stack := .item form p (n :: done) :: rest, stage := .between }
  | .key form p done :: rest =>
    { s with stack := .value form p done n :: rest, stage := .between }
  | .value .pair p _ k :: rest =>
    { s with stack := .pairEnd p k n :: rest, stage := .between }
  | .value .flow p done k :: rest =>
    { s with stack := .bareKey p ((k, n) :: done) :: rest, stage := .between }
  | .value .block p done k :: rest =>
    { s with stack := .key .block p ((k, n) :: done) :: rest, stage := .between }
  | .bareKey p done :: rest =>
    { s with stack := .bareValue p done n :: rest, stage := .between }
  | .bareValue .. :: _ | .pairEnd .. :: _ => s

/-- Takes the top off the stack and puts its node in place. -/
def close (s : State) (n : Node) : State :=
  place { s with stack := s.stack.tail } n

/-- A sequence of parts in reverse order. -/
def sequence (p : Properties) (done : List Node) : Node :=
  .sequence p.anchor p.tag done.reverse

/-- A mapping of entries in reverse order. -/
def mapping (p : Properties) (done : List (Node × Node)) : Node :=
  .mapping p.anchor p.tag done.reverse

/-- Opens a collection. -/
def push (s : State) (f : Frame) (stage : Stage) : State :=
  { s with stack := f :: s.stack, stage }

/-- Replaces the top of the stack. -/
def turn (s : State) (f : Frame) (stage : Stage) : State :=
  { s with stack := f :: s.stack.tail, stage }

/-- What a token does to the state. A token that does not fit leaves the state it was tried
in, which may have put absent parts in place before. -/
abbrev Step := Except (State × Malformation) State

/-- A token does not fit. -/
def reject (s : State) (m : Malformation) : Step := .error (s, m)

/-- A token does not fit into what began at another place. -/
def unfit (s : State) (scene : Scene) (start : Mark) (problem : Problem) (t : Sign) : Step :=
  reject s (.during scene start problem t.mark)

/-! ## Between parts -/

/-- A block mapping waits for a key or its end. -/
def awaitKey (s : State) (p : Properties) (done : List (Node × Node)) (t : Sign) : Step :=
  match t.token with
  | .key => .ok (turn s (.key .block p done) .fresh)
  | .blockEnd => .ok (close s (mapping p done))
  | _ => unfit (turn s (.key .block p done) .between) .blockMapping p.mark .noKey t

/-- A block mapping waits for the value of a key, which may be absent. -/
def awaitValue (s : State) (p : Properties) (done : List (Node × Node)) (k : Node) (t : Sign) :
    Step :=
  match t.token with
  | .value => .ok (turn s (.value .block p done k) .fresh)
  | _ => awaitKey s p ((k, .empty) :: done) t

/-- A flow sequence waits for a comma or its end. -/
def awaitItem (s : State) (p : Properties) (done : List Node) (t : Sign) : Step :=
  match t.token with
  | .flowEntry => .ok (turn s (.item .flow p done) .fresh)
  | .flowSequenceEnd => .ok (close s (sequence p done))
  | _ => unfit s .flowSequence p.mark .noCommaOrBracket t

/-- A flow mapping waits for a comma or its end. -/
def awaitEntry (s : State) (p : Properties) (done : List (Node × Node)) (t : Sign) : Step :=
  match t.token with
  | .flowEntry => .ok (turn s (.bareKey p done) .fresh)
  | .flowMappingEnd => .ok (close s (mapping p done))
  | _ => unfit (turn s (.bareKey p done) .between) .flowMapping p.mark .noCommaOrBrace t

/-- A pair is over; the sequence around it waits. -/
def endPair (s : State) (p : Properties) (k v : Node) (t : Sign) : Step :=
  let s := close s (mapping p [(k, v)])
  match s.stack with
  | .item .flow p done :: _ => awaitItem s p done t
  | _ => unfit s .flowSequence p.mark .noCommaOrBracket t

/-- A compact sequence is over; the mapping around it waits. -/
def endCompact (s : State) (p : Properties) (done : List Node) (t : Sign) : Step :=
  let s := close s (sequence p done)
  match s.stack with
  | .key .block p done :: _ => awaitKey s p done t
  | .value .block p done k :: _ => awaitValue s p done k t
  | _ => unfit s .blockMapping p.mark .noKey t

/-- Takes a token between two parts. -/
def between (s : State) (t : Sign) : Step :=
  match s.stack with
  | .item .block p done :: _ =>
    match t.token with
    | .blockEntry => .ok { s with stage := .fresh }
    | .blockEnd => .ok (close s (sequence p done))
    | _ => unfit s .blockSequence p.mark .noEntry t
  | .item .compact p done :: _ =>
    match t.token with
    | .blockEntry => .ok { s with stage := .fresh }
    | _ => endCompact s p done t
  | .item .flow p done :: _ => awaitItem s p done t
  | .key .block p done :: _ => awaitKey s p done t
  | .value .block p done k :: _ => awaitValue s p done k t
  | .value .flow p done k :: _ =>
    match t.token with
    | .value => .ok { s with stage := .fresh }
    | _ => awaitEntry s p ((k, .empty) :: done) t
  | .value .pair p _ k :: _ =>
    match t.token with
    | .value => .ok { s with stage := .fresh }
    | _ => endPair s p k .empty t
  | .bareKey p done :: _ => awaitEntry s p done t
  | .bareValue p done k :: _ => awaitEntry s p ((k, .empty) :: done) t
  | .pairEnd p k v :: _ => endPair s p k v t
  | _ => reject s .severalDocuments

/-! ## Where a node may begin -/

/-- Whether block collections may begin here. -/
def blockAllowed (s : State) : Bool :=
  match s.stack with
  | [] => true
  | .item form _ _ :: _ => form ≠ .flow
  | .key form _ _ :: _ | .value form _ _ _ :: _ => form = .block
  | _ => false

/-- Whether a sequence without indentation of its own may begin here. -/
def compactAllowed (s : State) : Bool :=
  match s.stack with
  | .key .block _ _ :: _ | .value .block _ _ _ :: _ => true
  | _ => false

/-- The number that the next anchor gets. -/
def register (s : State) (name : String) : State × Nat :=
  let n := (s.names.map (·.1)).eraseDups.length
  ({ s with names := (name, n) :: s.names }, n)

/-- The tag that a handle and a suffix stand for. -/
def tag? (s : State) (handle : String) (suffix : Option String) : Option Tag :=
  let join (expansion : Option String) : Tag :=
    match expansion, suffix with
    | some a, some b => .text (a ++ b)
    | _, _ => .unreadable
  if handle.isEmpty then some (join (some ""))
  else
    (((s.handles ++ [("!", some "!"), ("!!", some "tag:yaml.org,2002:")]).find?
      (·.1 = handle)).map (·.2)).map join

/-- The tag of a scalar with text: a bare mark is none. -/
def scalarTag (t : Option Tag) : Option Tag :=
  if t = some (.text "!") then none else t

/-- A node of which there are only properties is a scalar that is not there. -/
def leaveBare (s : State) (p : Properties) (t : Sign) : Step :=
  if p.anchor.isSome || p.tag.isSome then
    between (place s (.scalar p.anchor ⟨.plain, p.tag, ""⟩)) t
  else unfit s (if blockAllowed s then .blockNode else .flowNode) p.mark .noContent t

/-- Begins a node with the given properties. -/
def begin (s : State) (p : Properties) (t : Sign) : Step :=
  let here := { p with mark := t.mark }
  match t.token with
  | .scalar style text => .ok (place s (.scalar p.anchor ⟨style, scalarTag p.tag, text⟩))
  | .flowSequence => .ok (push s (.item .flow here []) .fresh)
  | .flowMapping => .ok (push s (.bareKey here []) .fresh)
  | .blockSequence =>
    if blockAllowed s then .ok (push s (.item .block here []) .between) else leaveBare s p t
  | .blockMapping =>
    if blockAllowed s then .ok (push s (.key .block here []) .between) else leaveBare s p t
  | .blockEntry =>
    if compactAllowed s then .ok (push s (.item .compact here []) .fresh) else leaveBare s p t
  | _ => leaveBare s p t

/-- Begins a node unless its tag has no meaning. -/
def beginTagged (s : State) (p : Properties) (t : Sign) : Step :=
  match p.undefined with
  | some place => reject s (.during .node p.mark .undefinedHandle place)
  | none => begin s p t

/-- Reads what may stand in front of a node, or begins it. -/
def node (s : State) (p : Properties) (t : Sign) : Step :=
  let isBare := p.anchor.isNone && p.tag.isNone && p.undefined.isNone
  match t.token with
  | .alias name =>
    if isBare then
      match s.names.lookup name with
      | some n => .ok (place s (.alias n))
      | none => reject s (.unknownAnchor t.mark)
    else beginTagged s p t
  | .anchor name =>
    if p.anchor.isNone then
      let (s, n) := register s name
      .ok { s with stage := .bound { p with anchor := some n } }
    else beginTagged s p t
  | .tag handle suffix =>
    if p.tag.isNone && p.undefined.isNone then
      match tag? s handle suffix with
      | some tag => .ok { s with stage := .bound { p with tag := some tag } }
      | none => .ok { s with stage := .bound { p with undefined := some t.mark } }
    else beginTagged s p t
  | _ => beginTagged s p t

/-- Takes a token where a node may begin, or may be left out. -/
def fresh (s : State) (t : Sign) : Step :=
  let leaveOut := place s .empty
  match s.stack, t.token with
  | .item .block _ _ :: _, .blockEntry | .item .block _ _ :: _, .blockEnd
  | .item .compact _ _ :: _, .blockEntry | .item .compact _ _ :: _, .key
  | .item .compact _ _ :: _, .value | .item .compact _ _ :: _, .blockEnd
  | .key .block _ _ :: _, .key | .key .block _ _ :: _, .value
  | .key .block _ _ :: _, .blockEnd
  | .value .block _ _ _ :: _, .key | .value .block _ _ _ :: _, .value
  | .value .block _ _ _ :: _, .blockEnd
  | .key .flow _ _ :: _, .value | .key .flow _ _ :: _, .flowEntry
  | .key .flow _ _ :: _, .flowMappingEnd
  | .value .flow _ _ _ :: _, .flowEntry | .value .flow _ _ _ :: _, .flowMappingEnd
  | .value .pair _ _ _ :: _, .flowEntry | .value .pair _ _ _ :: _, .flowSequenceEnd =>
    between leaveOut t
  | .key .pair _ _ :: _, .value | .key .pair _ _ :: _, .flowEntry
  | .key .pair _ _ :: _, .flowSequenceEnd => .ok leaveOut
  | .item .flow p done :: _, .flowSequenceEnd => .ok (close s (sequence p done))
  | .item .flow _ _ :: _, .key => .ok (push s (.key .pair { mark := t.mark } []) .fresh)
  | .bareKey p done :: _, .flowMappingEnd => .ok (close s (mapping p done))
  | .bareKey p done :: _, .key => .ok (turn s (.key .flow p done) .fresh)
  | _, _ => node s { mark := t.mark } t

/-- Takes a token inside a document. -/
def step (s : State) (t : Sign) : Step :=
  match s.stage with
  | .between => between s t
  | .fresh => fresh s t
  | .bound p => node s p t

/-! ## Documents -/

/-- The tree of an open collection, with the open tree inside it. -/
def cut (inner : Node) : Frame → Node
  | .item _ p done => sequence p ((if inner.isBroken then [inner] else [.broken, inner]) ++ done)
  | .key _ p done | .bareKey p done => mapping p ((inner, .broken) :: done)
  | .value _ p done k | .bareValue p done k =>
    if inner.isBroken then mapping p ((k, inner) :: done)
    else mapping p ((.broken, .broken) :: (k, inner) :: done)
  | .pairEnd p k v => mapping p [(.broken, .broken), (k, v)]

/-- The tree of what has been read, open where it breaks off. -/
def brokenRoot (s : State) : Node :=
  s.stack.foldl cut .broken

/-- Nothing but document ends stands before the end of the stream. -/
def endsHere : List Sign → Bool
  | [] => false
  | t :: rest =>
    match t.token with
    | .documentEnd => endsHere rest
    | .streamEnd => true
    | _ => false

/-- What makes a text malformed behind a document that is complete. -/
def restFault (tokens : List Sign) : Option Malformation :=
  if endsHere tokens then none else some .severalDocuments

/-- Reads a document to its end. Behind the tokens stands `stop`. -/
def content (stop : Option Malformation) (s : State) : List Sign → Document
  | [] => ⟨s.root.getD (brokenRoot s), stop⟩
  | t :: rest =>
    match s.root with
    | some root => ⟨root, restFault (t :: rest)⟩
    | none =>
      match step s t with
      | .ok s => content stop s rest
      | .error (s, m) =>
        match s.root with
        | some root => ⟨root, restFault (t :: rest)⟩
        | none => ⟨brokenRoot s, some m⟩

/-- Reads a document from behind its start mark. -/
def explicit (stop : Option Malformation) (s : State) (tokens : List Sign) : Document :=
  match tokens.head?.map Sign.token with
  | some (.versionDirective ..) | some (.tagDirective ..) | some .documentStart
  | some .documentEnd | some .streamEnd => ⟨.empty, restFault tokens⟩
  | _ => content stop s tokens

/-- Reads the directives in front of a document. -/
def directives (stop : Option Malformation) (s : State) (versioned : Bool) :
    List Sign → Document
  | [] => ⟨.broken, stop⟩
  | t :: rest =>
    let reject (problem : Problem) : Document := ⟨.broken, some (.misread problem t.mark none)⟩
    match t.token with
    | .versionDirective major minor =>
      if versioned then reject .secondVersion
      else if major = 1 && (minor = 1 || minor = 2) then directives stop s true rest
      else reject .otherVersion
    | .tagDirective handle expansion =>
      if s.handles.any (·.1 = handle) then reject .secondTagDirective
      else
        directives stop { s with handles := s.handles ++ [(handle, expansion)] } versioned rest
    | .documentStart => explicit stop s rest
    | _ => reject .noDocumentStart

end Compose

/-- The document of a scanned text. Without any content it is a scalar that is not there. -/
def Document.ofScan (scan : Scan) : Document :=
  let start : Compose.State := { stack := [] }
  match scan.tokens.head?.map Sign.token with
  | some (.versionDirective ..) | some (.tagDirective ..) | some .documentStart =>
    Compose.directives scan.malformation start false scan.tokens
  | some .streamEnd => ⟨.empty, none⟩
  | _ => Compose.content scan.malformation start scan.tokens

/-- The document of a text. -/
def Document.ofText (text : String) : Document := .ofScan (.ofText text)

end SchemaLedger.Yaml
