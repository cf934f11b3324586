import Rendezvous.Peer.Codec
import Rendezvous.Proofs.Json.Fields
import Rendezvous.Proofs.Json.RoundTrip

/-!
# Configurations in JSON, written and read back

Peers, groups and configurations are records, and each is written by the names of its fields. What was
written is read back as it was, be it a value or its text. What is read depends on the fields only: an
array is read as the object with its items under the names of the fields, and members with other keys
are passed over. The number of retries is no field of a peer: it belongs to the item that waits in a
queue.
-/

namespace Rendezvous

/-! ## Records that are written and read -/

namespace Json

/-- What writing and reading the values of a type keep, where they are records with these fields. -/
structure RoundTrips {α : Type} (names : List String) (toJson : α → Json) (ofJson? : Json → Option α) :
    Prop where
  /-- What was written is read as it was, -/
  read_written : ∀ a, ofJson? (toJson a) = some a
  /-- also from its text. -/
  read_text : ∀ a, (read? (write (toJson a))).bind ofJson? = some a
  /-- What was read, from any value, is the same when it is written and read again. -/
  read_again : ∀ j a, ofJson? j = some a → ofJson? (toJson a) = some a
  /-- Nothing but the fields is written, each at most once and in order. -/
  keys_written : ∀ a, ∃ ms, toJson a = ofMembers ms ∧ (ms.map (·.1)).Sublist names
  /-- A member with another key is not read. -/
  key_unread : ∀ key ∉ names, ∀ ms,
    ofJson? (.object (ms.filter (·.1 != some key))) = ofJson? (.object ms)
  /-- The order of the members does not matter. -/
  unordered : ∀ ms ms' : List (Option String × Json), ms.Perm ms' →
    ofJson? (.object ms) = ofJson? (.object ms')
  /-- An array is read as the object with its items under the names of the fields, in order. -/
  positional : ∀ items, ofJson? (.list items) =
    if items.length ≤ names.length then ofJson? (ofMembers (names.zip items)) else none

/-- Reading by the fields alone. -/
theorem RoundTrips.of_fields {α : Type} {names : List String} {toJson : α → Json}
    {ofJson? : Json → Option α} (hnames : names.Nodup)
    (hfields : ∀ {j j' : Json}, j.fields? names = j'.fields? names → ofJson? j = ofJson? j')
    (hnull : ofJson? .null = none) (hread : ∀ a, ofJson? (toJson a) = some a)
    (hproper : ∀ a, (toJson a).Proper)
    (hkeys : ∀ a, ∃ ms, toJson a = ofMembers ms ∧ (ms.map (·.1)).Sublist names) :
    RoundTrips names toJson ofJson? where
  read_written := hread
  read_text a := by rw [read?_write (hproper a), Option.bind_some, hread]
  read_again _ a _ := hread a
  keys_written := hkeys
  key_unread _ hkey ms := hfields (fields?_filter hnames hkey ms)
  unordered _ _ h := hfields (fields?_perm hnames h)
  positional items := by
    have hlist := fields?_list hnames items
    by_cases hlength : items.length ≤ names.length
    · rw [if_pos hlength] at hlist ⊢
      exact hfields hlist
    · have hrefused : (Json.list items).fields? names = Json.null.fields? names := by
        rw [hlist, if_neg hlength]
        rfl
      rw [if_neg hlength, hfields hrefused, hnull]

/-- A list that is a field is read as it was written. -/
theorem orDefault_list {α : Type} {read : Json → Option α} {write : α → Json}
    (h : ∀ a, read (write a) = some a) (as : List α) :
    Record.orDefault [] (fun j : Json => j.items?.bind (·.mapM read)) (some (.list (as.map write))) =
      some as :=
  mapM_map_eq_some fun a _ => h a

theorem strings?_list (ss : List String) : (list (ss.map ofString)).strings? = some ss :=
  mapM_map_eq_some fun _ _ => rfl

theorem proper_strings (ss : List String) : (list (ss.map ofString)).Proper := by
  refine .list fun j hj => ?_
  obtain ⟨s, -, rfl⟩ := List.mem_map.1 hj
  exact .text s

end Json

theorem NodeType.ofName?_name (t : NodeType) : ofName? t.name = some t := by
  cases t <;> rfl

/-! ## Peers -/

namespace Peer

theorem ofJson?_toJson (p : Peer) : ofJson? p.toJson = some p := by
  have hfields := @Json.fields?_zip fieldNames (by decide)
    [.ofString p.nodeName, .ofString p.nodeType.name, .ofString p.container,
      .ofString p.setupContainer, .bool p.connectsAsEnvVar, .list (p.connectsTo.map .ofString),
      .list (p.dnsConnections.map .ofString), .ofString p.space] rfl
  have htype : NodeType.ofJson? (.ofString p.nodeType.name) = some p.nodeType :=
    p.nodeType.ofName?_name
  change p.toJson.fields? fieldNames = _ at hfields
  unfold ofJson?
  rw [hfields]
  simp only [List.map_cons, List.map_nil, Record.orDefault, htype, Json.strings?_list]
  rfl

theorem proper_toJson (p : Peer) : p.toJson.Proper := by
  refine .ofMembers ?_
  simp only [List.forall_mem_cons, List.not_mem_nil, false_imp_iff, implies_true, and_true]
  exact ⟨.text _, .text _, .text _, .text _, .bool _, Json.proper_strings _, Json.proper_strings _,
    .text _⟩

theorem roundTrips : Json.RoundTrips fieldNames toJson ofJson? := by
  refine .of_fields (by decide) ?_ rfl ofJson?_toJson proper_toJson fun p => ⟨_, rfl, ?_⟩
  · intro j j' h
    unfold ofJson?
    rw [h]
  · exact List.Sublist.refl _

end Peer

/-! ## Groups -/

namespace PeerGroup

theorem ofJson?_toJson (g : PeerGroup) : ofJson? g.toJson = some g := by
  obtain ⟨peers, consensusNode, path⟩ := g
  have hfields : (toJson ⟨peers, consensusNode, path⟩).fields? fieldNames =
      some [some (.list (peers.map Peer.toJson)), consensusNode.map .ofString, path.map .ofString] := by
    rw [toJson, Json.fields?_ofMembers]
    cases consensusNode <;> cases path <;> simp [Record.ofMembers?, fieldNames]
  have hname : ∀ name : Option String,
      Record.orDefault none Json.nullableString? (name.map Json.ofString) = some name := by
    intro name
    cases name <;> rfl
  unfold ofJson?
  rw [hfields]
  simp only [Json.orDefault_list Peer.ofJson?_toJson, hname]
  rfl

theorem proper_toJson (g : PeerGroup) : g.toJson.Proper := by
  refine .ofMembers fun m hm => ?_
  simp only [List.mem_cons, List.mem_append, List.mem_map, Option.mem_toList] at hm
  obtain rfl | ⟨s, -, rfl⟩ | ⟨s, -, rfl⟩ := hm
  · refine .list fun j hj => ?_
    obtain ⟨p, -, rfl⟩ := List.mem_map.1 hj
    exact p.proper_toJson
  · exact .text s
  · exact .text s

theorem roundTrips : Json.RoundTrips fieldNames toJson ofJson? := by
  refine .of_fields (by decide) ?_ rfl ofJson?_toJson proper_toJson fun g => ⟨_, rfl, ?_⟩
  · intro j j' h
    unfold ofJson?
    rw [h]
  · have hone : ∀ (key : String) (name : Option String),
        ((name.toList.map fun s => (key, Json.ofString s)).map (·.1)).Sublist [key] := by
      intro key name
      cases name <;> simp
    rw [List.map_cons, List.map_append]
    exact ((hone "consensusNode" _).append (hone "trustedPeersPath" _)).cons_cons "peers"

end PeerGroup

/-! ## Configurations -/

namespace Config

theorem ofJson?_toJson (c : Config) : ofJson? c.toJson = some c := by
  have hfields := @Json.fields?_zip fieldNames (by decide)
    [.list (c.groups.map PeerGroup.toJson)] rfl
  change c.toJson.fields? fieldNames = _ at hfields
  unfold ofJson?
  rw [hfields]
  simp only [List.map_cons, List.map_nil, Json.orDefault_list PeerGroup.ofJson?_toJson]
  rfl

theorem proper_toJson (c : Config) : c.toJson.Proper := by
  refine .ofMembers fun m hm => ?_
  obtain rfl := List.mem_singleton.1 hm
  refine .list fun j hj => ?_
  obtain ⟨g, -, rfl⟩ := List.mem_map.1 hj
  exact g.proper_toJson

theorem roundTrips : Json.RoundTrips fieldNames toJson ofJson? := by
  refine .of_fields (by decide) ?_ rfl ofJson?_toJson proper_toJson fun c => ⟨_, rfl, ?_⟩
  · intro j j' h
    unfold ofJson?
    rw [h]
  · exact List.Sublist.refl _

/-- Configurations, their groups and the peers in these are read back as they were written, from
objects and arrays, and neither the number of retries nor anything else that is no field of theirs is
read or written. -/
theorem json_read_back :
    Json.RoundTrips fieldNames toJson ofJson? ∧
      Json.RoundTrips PeerGroup.fieldNames PeerGroup.toJson PeerGroup.ofJson? ∧
      Json.RoundTrips Peer.fieldNames Peer.toJson Peer.ofJson? ∧
      ∀ key ∈ ["retryCount", "retry_count"], key ∉ Peer.fieldNames :=
  ⟨roundTrips, PeerGroup.roundTrips, Peer.roundTrips, by decide⟩

/-- A configuration with a key that is no field and a group that is an array; one of its peers is an
array, too, and the other one gives a number of retries. -/
def mixedJson : Json :=
  .ofMembers [("version", .null), ("mutualPeers", .list [
    .list [.list [
      .list [.ofString "da-1", .ofString "consensus"],
      .ofMembers [("retryCount", .ofNat 3), ("nodeName", .ofString "da-2")]], .null],
    .object []])]

theorem json_read_back_mixed : ∃ c, ofJson? mixedJson = some c ∧
    c.peers = [{ nodeName := "da-1", nodeType := .consensus }, { nodeName := "da-2" }] ∧
    ofJson? c.toJson = some c :=
  ⟨_, rfl, rfl, json_read_back.1.read_again mixedJson _ rfl⟩

end Config

end Rendezvous
