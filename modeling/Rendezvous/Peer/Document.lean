import Rendezvous.Cache.Disk
import Rendezvous.Peer.Codec
import Rendezvous.Text.Quoted
import Rendezvous.Yaml.Document

/-!
# Configurations in YAML

The configuration of the controller is a YAML document. What a field is decides how its node is
read: where a text is wanted, any scalar is taken as it is written, be it a number, a truth value or
`null`; an empty node is a list without items or a mapping without entries; and only fields that may
be absent take a null for that.

A reference is read as the node that it stands for. So that a short document cannot stand for an
endless one, at most a hundred references are followed for each mark of the document.

A configuration that was read gets its defaults, and is accepted if it breaks no rule.
-/

namespace Rendezvous

open Yaml

/-- Why a text gives no configuration. -/
inductive DocumentError where
  /-- The text is no document, or its document is no configuration. -/
  | malformed
  /-- The configuration breaks a rule. -/
  | invalid (cause : ConfigError)
deriving DecidableEq, Repr

/-- The sentence shown for a text that gives no configuration. -/
def DocumentError.message : DocumentError → String
  | .malformed => "Failed to parse mutual peers YAML"
  | .invalid cause => cause.message

/-- Why a file gives no configuration. -/
inductive LoadError where
  /-- There is no such file, or it holds no text. -/
  | unreadable (path : DiskPath)
  /-- The text in the file gives no configuration. -/
  | unusable (path : DiskPath) (cause : DocumentError)
deriving DecidableEq, Repr

/-- The sentence shown for a file that gives no configuration. -/
def LoadError.message : LoadError → String
  | .unreadable path => "Failed to read config file: " ++ Text.quoted ("/".intercalate path)
  | .unusable path _ => "Invalid config file: " ++ Text.quoted ("/".intercalate path)

/-- Reading from the nodes below a root. The state is the number of references that may still be
followed. -/
abbrev NodeReader := ReaderT Node (StateT Nat Option)

namespace NodeReader

/-- The node that a node stands for. -/
def follow : Node → NodeReader Node
  | .alias a => do
    match ← get with
    | 0 => failure
    | n + 1 =>
      set n
      match (← read).find? a with
      | some target => return target
      | none => failure
  | n => return n

/-- Whether a text is one of the names of the null value. -/
def isNullName (s : String) : Bool :=
  ["null", "Null", "NULL", "~"].contains s

/-- Read a text: any scalar. -/
def text (n : Node) : NodeReader String := do
  match ← follow n with
  | .scalar _ s _ _ => return s
  | _ => failure

/-- Read a text that may be absent. Only a scalar without quotes can say so; with the tag of a null
it has to. -/
def optionalText (n : Node) : NodeReader (Option String) := do
  match ← follow n with
  | .scalar _ s .plain (some tag) =>
    if tag ≠ Tag.null then return some s
    else if isNullName s then return none
    else failure
  | .scalar _ s .plain none => return if s.isEmpty || isNullName s then none else some s
  | .scalar _ s _ _ => return some s
  | _ => failure

/-- Read a truth value. -/
def bool (n : Node) : NodeReader Bool := do
  match ← follow n with
  | .scalar _ s style tag =>
    if style = .plain ∨ (style = .literal ∧ tag = some Tag.bool) then
      if ["true", "True", "TRUE"].contains s then return true
      else if ["false", "False", "FALSE"].contains s then return false
      else failure
    else failure
  | _ => failure

/-- Read a node type: its name, or a null whose tag is its name. -/
def nodeType (n : Node) : NodeReader NodeType := do
  match ← follow n with
  | .scalar _ s style tag =>
    match tag.bind Tag.localName? with
    | some name =>
      if style = .plain ∧ (s.isEmpty ∨ isNullName s) then NodeType.ofName? name else failure
    | none => NodeType.ofName? s
  | _ => failure

/-- Read a list, each of whose items is read by `item`. -/
def list {α : Type} (item : Node → NodeReader α) (n : Node) : NodeReader (List α) := do
  match ← follow n with
  | .list _ items => items.mapM item
  | .scalar _ "" .plain _ => return []
  | _ => failure

/-- The value of a field among the entries of a mapping. No field may be given twice. -/
def fieldOf? (entries : List (String × Node)) (name : String) : NodeReader (Option Node) :=
  match entries.filter (·.1 == name) with
  | [] => return none
  | [e] => return some e.2
  | _ => failure

/-- Read the fields of a record: their nodes, for those that are given. All keys are texts, and
those that are no field are passed over. -/
def fields (names : List String) (n : Node) : NodeReader (List (Option Node)) := do
  match ← follow n with
  | .map _ entries =>
    let entries ← entries.mapM fun e => return (← text e.1, e.2)
    names.mapM (fieldOf? entries)
  | .scalar _ "" .plain _ => return names.map fun _ => none
  | _ => failure

/-- Read the value of a field, if it is given. -/
def orDefault {α : Type} (default : α) (read : Node → NodeReader α) (n : Option Node) :
    NodeReader α := do
  return (← n.mapM read).getD default

/-- Read a peer. -/
def peer (n : Node) : NodeReader Peer := do
  match ← fields Peer.fieldNames n with
  | [some nodeName, type, container, setup, asEnvVar, connectsTo, dns, space] =>
    return {
      nodeName := ← text nodeName
      nodeType := ← orDefault .da nodeType type
      container := ← orDefault "" text container
      setupContainer := ← orDefault "" text setup
      connectsAsEnvVar := ← orDefault false bool asEnvVar
      connectsTo := ← orDefault [] (list text) connectsTo
      dnsConnections := ← orDefault [] (list text) dns
      space := ← orDefault "" text space }
  | _ => failure

/-- Read a group. -/
def group (n : Node) : NodeReader PeerGroup := do
  match ← fields PeerGroup.fieldNames n with
  | [peers, consensusNode, path] =>
    return {
      peers := ← orDefault [] (list peer) peers
      consensusNode := ← orDefault none optionalText consensusNode
      trustedPeersPath := ← orDefault none optionalText path }
  | _ => failure

/-- Read a configuration. -/
def config (n : Node) : NodeReader Config := do
  match ← fields Config.fieldNames n with
  | [groups] => return { groups := ← orDefault [] (list group) groups }
  | _ => failure

end NodeReader

namespace Config

/-- Read a configuration from the root of a document. -/
def ofYaml? (root : Node) : Option Config :=
  ((NodeReader.config root).run root (100 * root.size)).map (·.1)

/-- Accept a configuration with its defaults filled in, if it breaks no rule. -/
def accept (c : Config) (space : String) : Except DocumentError Config :=
  let c := c.withDefaults space
  match c.fault? with
  | some e => .error (.invalid e)
  | none => .ok c

/-- Read a configuration from a text. -/
def parse (text space : String) : Except DocumentError Config :=
  match (Yaml.read? text).bind ofYaml? with
  | some c => c.accept space
  | none => .error .malformed

/-- Read a configuration from the content of a file, if there is any. -/
def ofContent (path : DiskPath) (content : Option ByteArray) (space : String) :
    Except LoadError Config :=
  match content.bind String.fromUTF8? with
  | some text => (parse text space).mapError (.unusable path)
  | none => .error (.unreadable path)

/-- Read a configuration from a file. -/
def load (d : Disk) (path : DiskPath) (space : String) : Except LoadError Config :=
  ofContent path (d.read path).toOption space

end Config

end Rendezvous
