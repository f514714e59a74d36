import BuildWorker.Yaml.Token

/-!
# Documents

A document is a tree of nodes. An alias does not repeat the node it stands for: it refers to it by
number, since a node may even refer to itself. `Document.resolve` follows the reference.

The nodes are read from tokens by recursive descent over the productions of the grammar. Where a
node is missing there is an empty plain scalar.
-/

namespace BuildWorker.Yaml

/-- A node. -/
inductive Node
  | scalar (tag : Option String) (style : ScalarStyle) (text : String)
  /-- A list of nodes. -/
  | sequence (tag : Option String) (items : List Node)
  /-- Keys with their values. -/
  | mapping (tag : Option String) (entries : List (Node × Node))
  /-- A reference to an anchored node. -/
  | alias (target : Nat)

/-- A document: its root, if it has one, and its anchored nodes. -/
structure Document where
  /-- The top node. -/
  root : Option Node
  /-- The anchored nodes by number. Of the nodes of one number the first here is meant. -/
  anchored : List (Nat × Node) := []

/-- The node that a node stands for. -/
def Document.resolve (d : Document) : Node → Node
  | .alias target => (d.anchored.lookup target).getD (.alias target)
  | node => node

/-- What a reader of tokens keeps. -/
structure Reader where
  /-- The tokens that are left. -/
  tokens : List Token
  /-- What tag handles stand for. -/
  handles : List (String × String) := []
  /-- The names of anchors so far with their numbers. A name stands here once. -/
  anchors : List (String × Nat) := []
  /-- The anchored nodes so far, the latest to start first. One that is not complete has the place
  of a missing node. -/
  anchored : List (Nat × Node) := []

namespace Reader

/-- Pass over a token. -/
def next (r : Reader) : Reader := { r with tokens := r.tokens.drop 1 }

/-- The handles that need no directive. -/
def standardHandles : List (String × String) := [("!", "!"), ("!!", "tag:yaml.org,2002:")]

/-- The full form of a tag. -/
def tagOf (r : Reader) (handle suffix : String) : Except Fault String :=
  if handle.isEmpty then .ok suffix
  else match (r.handles ++ standardHandles).lookup handle with
    | some expansion => .ok (expansion ++ suffix)
    | none => .error .tag

/-- The empty scalar that stands for a missing node. -/
def missing : Node := .scalar none .plain ""

/-- The anchor and tag before a node, in either order. -/
def properties (r : Reader) : Except Fault (Option String × Option String × Reader) := do
  match r.tokens with
  | .anchor name :: .tag handle suffix :: rest =>
    return (some name, some (← r.tagOf handle suffix), { r with tokens := rest })
  | .tag handle suffix :: .anchor name :: rest =>
    return (some name, some (← r.tagOf handle suffix), { r with tokens := rest })
  | .anchor name :: rest => return (some name, none, { r with tokens := rest })
  | .tag handle suffix :: rest =>
    return (none, some (← r.tagOf handle suffix), { r with tokens := rest })
  | _ => return (none, none, r)

/-- Start an anchored node; the result is how many started before it. The number of an anchor is how
many names there are so far. A name that is anchored again gets the number that the next new name
gets too, and of the nodes of one number the last to start is meant. -/
def declare (r : Reader) : Option String → Option Nat × Reader
  | none => (none, r)
  | some name =>
    (some r.anchored.length,
      { r with
        anchors := (name, r.anchors.length) :: r.anchors.filter (·.1 != name)
        anchored := (r.anchors.length, missing) :: r.anchored })

/-- Keep a complete node as the anchored node that started after a number of others. -/
def keep (r : Reader) (earlier : Option Nat) (node : Node) : Reader :=
  match earlier with
  | none => r
  | some n =>
    let place := r.anchored.length - 1 - n
    { r with anchored := r.anchored.modify place fun (number, _) => (number, node) }

/-- Where a node is read. -/
inductive Place
  | block
  /-- As the key or value of a block mapping, where a sequence need not be indented. -/
  | entry
  /-- In a flow collection. -/
  | flow
  deriving DecidableEq, Repr

/-- The tag of a scalar that is written: a lone exclamation mark says nothing. -/
def scalarTag (tag : Option String) : Option String := if tag = some "!" then none else tag

mutual

/-- Read a node. -/
def node : Nat → Place → Reader → Except Fault (Node × Reader)
  | 0, _, _ => .error .fuel
  | fuel + 1, place, r =>
    match r.tokens with
    | .alias name :: _ =>
      match r.anchors.lookup name with
      | some n => .ok (.alias n, r.next)
      | none => .error .alias
    | _ => do
      let (anchor, tag, r) ← r.properties
      let (earlier, r) := r.declare anchor
      let (found, r) ← content fuel place anchor tag r
      return (found, r.keep earlier found)

/-- Read what follows the properties of a node. -/
def content : Nat → Place → Option String → Option String → Reader →
    Except Fault (Node × Reader)
  | 0, _, _, _, _ => .error .fuel
  | fuel + 1, place, anchor, tag, r =>
    match r.tokens, place with
    | .blockEntry :: _, .entry => do
      let (items, r) ← plainEntries fuel r
      return (.sequence tag items, r)
    | .scalar style text :: _, _ => .ok (.scalar (scalarTag tag) style text, r.next)
    | .flowSequenceStart :: _, _ => do
      let (items, r) ← flowItems fuel true r.next
      return (.sequence tag items, r)
    | .flowMappingStart :: _, _ => do
      let (entries, r) ← flowEntries fuel true r.next
      return (.mapping tag entries, r)
    | .blockSequenceStart :: _, .block | .blockSequenceStart :: _, .entry => do
      let (items, r) ← blockItems fuel r.next
      return (.sequence tag items, r)
    | .blockMappingStart :: _, .block | .blockMappingStart :: _, .entry => do
      let (entries, r) ← blockEntries fuel r.next
      return (.mapping tag entries, r)
    | _, _ =>
      if anchor.isSome || tag.isSome then .ok (.scalar tag .plain "", r)
      else .error .token

/-- Read the items of an indented block sequence, and its end. -/
def blockItems : Nat → Reader → Except Fault (List Node × Reader)
  | 0, _ => .error .fuel
  | fuel + 1, r =>
    match r.tokens with
    | .blockEntry :: rest => do
      let r := r.next
      let (item, r) ← match rest.head? with
        | some .blockEntry | some .blockEnd => pure (missing, r)
        | _ => node fuel .block r
      let (items, r) ← blockItems fuel r
      return (item :: items, r)
    | .blockEnd :: _ => .ok ([], r.next)
    | _ => .error .token

/-- Read the items of a block sequence that is not indented; its end is no token. -/
def plainEntries : Nat → Reader → Except Fault (List Node × Reader)
  | 0, _ => .error .fuel
  | fuel + 1, r =>
    match r.tokens with
    | .blockEntry :: rest => do
      let r := r.next
      let (item, r) ← match rest.head? with
        | some .blockEntry | some .key | some .value | some .blockEnd => pure (missing, r)
        | _ => node fuel .block r
      let (items, r) ← plainEntries fuel r
      return (item :: items, r)
    | _ => .ok ([], r)

/-- Read the entries of a block mapping, and its end. -/
def blockEntries : Nat → Reader → Except Fault (List (Node × Node) × Reader)
  | 0, _ => .error .fuel
  | fuel + 1, r =>
    match r.tokens with
    | .key :: rest => do
      let r := r.next
      let (key, r) ← match rest.head? with
        | some .key | some .value | some .blockEnd => pure (missing, r)
        | _ => node fuel .entry r
      let (value, r) ← blockValue fuel r
      let (entries, r) ← blockEntries fuel r
      return ((key, value) :: entries, r)
    | .blockEnd :: _ => .ok ([], r.next)
    | _ => .error .token

/-- Read the value of a key of a block mapping. -/
def blockValue : Nat → Reader → Except Fault (Node × Reader)
  | 0, _ => .error .fuel
  | fuel + 1, r =>
    match r.tokens with
    | .value :: rest =>
      match rest.head? with
      | some .key | some .value | some .blockEnd => .ok (missing, r.next)
      | _ => node fuel .entry r.next
    | _ => .ok (missing, r)

/-- Read the items of a flow sequence, and its end. A key in it makes a mapping of one entry. -/
def flowItems : Nat → Bool → Reader → Except Fault (List Node × Reader)
  | 0, _, _ => .error .fuel
  | fuel + 1, first, r =>
    match r.tokens with
    | .flowSequenceEnd :: _ => .ok ([], r.next)
    | _ => do
      let r ←
        if first then pure r
        else match r.tokens with
          | .flowEntry :: _ => pure r.next
          | _ => throw .token
      match r.tokens with
      | .flowSequenceEnd :: _ => return ([], r.next)
      | .key :: _ => do
        let (key, r) ← flowPairKey fuel r.next
        let (value, r) ← flowValue fuel .flowSequenceEnd r
        let (items, r) ← flowItems fuel false r
        return (.mapping none [(key, value)] :: items, r)
      | _ => do
        let (item, r) ← node fuel .flow r
        let (items, r) ← flowItems fuel false r
        return (item :: items, r)

/-- Read the key of a single entry in a flow sequence. The token behind a missing key is lost. -/
def flowPairKey : Nat → Reader → Except Fault (Node × Reader)
  | 0, _ => .error .fuel
  | fuel + 1, r =>
    match r.tokens with
    | .value :: _ | .flowEntry :: _ | .flowSequenceEnd :: _ => .ok (missing, r.next)
    | _ => node fuel .flow r

/-- Read the value of a key in a flow collection that ends with the given token. -/
def flowValue : Nat → Token → Reader → Except Fault (Node × Reader)
  | 0, _, _ => .error .fuel
  | fuel + 1, closing, r =>
    match r.tokens with
    | .value :: rest =>
      if rest.head? = some .flowEntry || rest.head? = some closing then .ok (missing, r.next)
      else node fuel .flow r.next
    | _ => .ok (missing, r)

/-- Read the entries of a flow mapping, and its end. A node that is no key has no value. -/
def flowEntries : Nat → Bool → Reader → Except Fault (List (Node × Node) × Reader)
  | 0, _, _ => .error .fuel
  | fuel + 1, first, r =>
    match r.tokens with
    | .flowMappingEnd :: _ => .ok ([], r.next)
    | _ => do
      let r ←
        if first then pure r
        else match r.tokens with
          | .flowEntry :: _ => pure r.next
          | _ => throw .token
      match r.tokens with
      | .flowMappingEnd :: _ => return ([], r.next)
      | .key :: rest => do
        let r := r.next
        let (key, r) ← match rest.head? with
          | some .value | some .flowEntry | some .flowMappingEnd => pure (missing, r)
          | _ => node fuel .flow r
        let (value, r) ← flowValue fuel .flowMappingEnd r
        let (entries, r) ← flowEntries fuel false r
        return ((key, value) :: entries, r)
      | _ => do
        let (key, r) ← node fuel .flow r
        let (entries, r) ← flowEntries fuel false r
        return ((key, missing) :: entries, r)

end

/-- Fuel for reading the tokens that are left: a token is read in every third step. -/
def fuel (r : Reader) : Nat := 3 * r.tokens.length + 8

/-- Read the directives before a document. -/
def directives (r : Reader) : Nat → Bool → Except Fault Reader
  | 0, _ => .error .fuel
  | fuel + 1, versioned =>
    match r.tokens with
    | .version major minor :: _ =>
      if versioned || major ≠ 1 || (minor ≠ 1 && minor ≠ 2) then .error .directive
      else r.next.directives fuel true
    | .handle name expansion :: _ =>
      if (r.handles.lookup name).isSome then .error .directive
      else { r.next with handles := (name, expansion) :: r.handles }.directives fuel versioned
    | _ => .ok r

/-- Read the content of a document behind its start marker. -/
def marked (r : Reader) : Except Fault (Node × Reader) :=
  match r.tokens with
  | [] | .documentStart :: _ | .documentEnd :: _ | .version _ _ :: _ | .handle _ _ :: _ =>
    .ok (missing, r)
  | _ => node r.fuel .block r

/-- Read a document that may do without a start marker if it is the first. -/
def document (r : Reader) : Except Fault (Node × Reader) := do
  match r.tokens with
  | .documentStart :: _ => r.next.marked
  | .version _ _ :: _ | .handle _ _ :: _ =>
    let r ← r.directives r.fuel false
    match r.tokens with
    | .documentStart :: _ => r.next.marked
    | _ => throw .token
  | _ => node r.fuel .block r

/-- Nothing but end markers may follow the only document. -/
def ended (r : Reader) : Except Fault Unit :=
  match r.tokens.dropWhile (· = .documentEnd) with
  | [] => .ok ()
  | _ => .error .documents

end Reader

/-- The only document of a stream; a stream without one has a document without a root. -/
def Document.read (text : String) : Except Fault Document := do
  match ← tokens text with
  | [] => return { root := none }
  | ts =>
    let (root, r) ← Reader.document { tokens := ts }
    r.ended
    return { root, anchored := r.anchored }

end BuildWorker.Yaml
