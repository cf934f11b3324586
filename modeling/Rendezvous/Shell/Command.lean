import Rendezvous.Peer.Basic
import Rendezvous.Shell.Quoting
import Rendezvous.Text.Pieces

/-!
# Commands

What the controller runs inside the containers of a node, and the shell scripts that do it. A node's
identity can only be read from inside the node, because the token of its admin interface never
leaves the pod; that is why everything is a script.
-/

namespace Rendezvous

/-- A command for a container. -/
inductive Command where
  /-- Ask the node for its peer identifier. -/
  | peerInfo
  /-- Print the first IPv4 address of the workload that is no loopback address. -/
  | nodeIp
  /-- Replace the content of a file and print it. -/
  | writeFile (content path : String)
  /-- Leave the one dependency where a node finds it as an environment value. -/
  | envVarFile (value : String) (nodeType : NodeType)
  /-- Add an address to the list of trusted peers in a directory, unless it is listed. -/
  | appendTrustedPeer (address dir : String)
deriving DecidableEq, Repr

namespace Command

/-- The file from which a node's setup takes its connection string. -/
def connectionsFile : String := "/tmp/celestia-config/TP-ADDR"

/-- The file with the address that a node trusts from the start. -/
def trustedPeerFile : String := "/tmp/TP-ADDR"

/-- The name of a list of trusted peers. -/
def trustedPeersList : String := "TRUSTED_PEERS"

/-- The file for the dependency of a node that takes it as an environment value. -/
def envVarPath : NodeType → String
  | .consensus => "/home/celestia/config/TP-ADDR"
  | .da => "/tmp/CONSENSUS_NODE_SERVICE"

/-- Write the connection string of a node. -/
def writeConnections (content : String) : Command :=
  .writeFile content connectionsFile

/-- The short name of a command. -/
def name : Command → String
  | .peerInfo => "peer-info"
  | .nodeIp => "node-ip"
  | .writeFile .. => "write-file"
  | .envVarFile .. => "env-var-file"
  | .appendTrustedPeer .. => "append-trusted-peer"

/-- The script that asks the admin interface of a node for its identifier. -/
def peerInfoScript : String :=
  Text.unlines
    ["#!/bin/sh",
      "# generate the token",
      "export AUTHTOKEN=$(celestia bridge auth admin --node.store /home/celestia)",
      "",
      "# keep only the token, the binary prints a warning line first",
      "export AUTHTOKEN=$(echo $AUTHTOKEN|rev|cut -d' ' -f1|rev)",
      "",
      "# make the request and parse the response",
      "wget --header=\"Authorization: Bearer $AUTHTOKEN\" \\",
      "   --header=\"Content-Type: application/json\" \\",
      "   --post-data='\x7b\"jsonrpc\":\"2.0\",\"id\":0,\"method\":\"p2p.Info\",\"params\":[]\x7d' \\",
      "   --output-document - \\",
      "   http://localhost:26658 | grep -o '\"ID\":\"[^\"]*\"' | sed 's/\"ID\":\"\\([^\"]*\\)\"/\\1/'"]

/-- The script that prints the first IPv4 address of a workload. -/
def nodeIpScript : String :=
  Text.unlines
    ["#!/bin/sh",
      "ip=$(ifconfig 2>/dev/null | grep -oE 'inet (addr:)?([0-9]+\\.)\x7b3\x7d[0-9]+' | " ++
        "grep -oE '([0-9]+\\.)\x7b3\x7d[0-9]+' | grep -v '^127\\.' | head -n 1)",
      "echo -n \"$\x7bip\x7d\""]

/-- The parts of the script of a command. -/
def pieces : Command → List Shell.Piece
  | .peerInfo => [.text peerInfoScript]
  | .nodeIp => [.text nodeIpScript]
  | .writeFile content path =>
    [.text "#!/bin/sh\nmkdir -p \"$(dirname \"", .field path,
      .text "\")\"\necho -n \"", .field content, .text "\" > \"", .field path,
      .text "\"\ncat \"", .field path, .text "\""]
  | .envVarFile value nodeType =>
    [.text "#!/bin/sh\necho -n \"", .field value,
      .text ("\" > \"" ++ envVarPath nodeType ++ "\"")]
  | .appendTrustedPeer address dir =>
    let dir := Text.dropTrailing '/' dir
    let list := "/" ++ trustedPeersList
    [.text "#!/bin/sh\nmkdir -p \"", .field dir,
      .text "\"\nif [ ! -f \"", .field dir,
      .text (list ++ "\" ]; then\n  if [ -f \"" ++ trustedPeerFile ++ "\" ]; then\n    cp \"" ++
        trustedPeerFile ++ "\" \""), .field dir,
      .text (list ++ "\"\n  else\n    touch \""), .field dir,
      .text (list ++ "\"\n  fi\nfi\n# only add the peer if it isn't in the list yet\ngrep -qF \""),
      .field address, .text "\" \"", .field dir,
      .text (list ++ "\" || echo -n \","), .field address, .text "\" >> \"", .field dir,
      .text (list ++ "\"\ncat \""), .field dir, .text (list ++ "\"")]

/-- The script of a command. -/
def script (c : Command) : String :=
  Shell.render c.pieces

/-- The words that run a command. -/
def argv (c : Command) : List String :=
  ["sh", "-c", c.script]

end Command

end Rendezvous
