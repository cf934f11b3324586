import Rendezvous.Proofs.Address.Segments

/-!
# Sequences of pushes

Segments are offered to an empty connection string one after another. One that does not begin like an
address is refused, and the text stays as it is. The others are joined by commas in the order in which
they came: a comma is added in front of a segment if and only if something has been accepted before it,
which the text shows, because no accepted segment is empty.
-/

namespace Rendezvous

/-- What begins like an address begins with one of the two leads. -/
theorem hasLead_iff {s : String} :
    hasLead s = true ↔ ∃ rest, s = Host.ip4Lead ++ rest ∨ s = Host.dnsLead ++ rest := by
  have hstarts : ∀ lead : String, Text.startsWith s lead = true ↔ ∃ rest, s = lead ++ rest := by
    intro lead
    rw [Text.startsWith, List.isPrefixOf_iff_prefix]
    constructor
    · rintro ⟨rest, hrest⟩
      refine ⟨String.ofList rest, ?_⟩
      rw [← String.toList_inj, String.toList_append, String.toList_ofList, hrest]
    · rintro ⟨rest, rfl⟩
      exact ⟨rest.toList, String.toList_append.symm⟩
  rw [hasLead, Bool.or_eq_true, hstarts, hstarts, ← exists_or]

theorem ne_empty_of_hasLead {s : String} (h : hasLead s = true) : s ≠ "" := by
  rintro rfl
  exact absurd h (by decide)

namespace Connections

/-- Offer a segment: the answer to it, and what there is after it. -/
def offer (c : Connections) (segment : String) : Except FormatError Unit × Connections :=
  match c.push segment with
  | .ok c' => (.ok (), c')
  | .error e => (.error e, c)

/-- Offer segments one after another. -/
def offerAll (c : Connections) : List String → List (Except FormatError Unit) × Connections
  | [] => ([], c)
  | segment :: rest =>
    let (answer, c') := c.offer segment
    let (answers, last) := c'.offerAll rest
    (answer :: answers, last)

/-- The segments that begin like an address. -/
def accepted (segments : List String) : List String := segments.filter (hasLead ·)

/-- The answer to a segment. -/
def answer (segment : String) : Except FormatError Unit :=
  if hasLead segment then .ok () else .error (.missingPrefix segment)

variable {segments : List String} {segment : String}

theorem accepted_append (segments segments' : List String) :
    accepted (segments ++ segments') = accepted segments ++ accepted segments' :=
  List.filter_append ..

theorem ne_empty_of_accepted {s : String} (hs : s ∈ accepted segments) : s ≠ "" :=
  ne_empty_of_hasLead (List.mem_filter.1 hs).2

/-- Nothing is accepted if and only if no segment is answered so. -/
theorem accepted_eq_nil_iff : accepted segments = [] ↔ .ok () ∉ segments.map answer := by
  rw [accepted, List.filter_eq_nil_iff, List.mem_map, not_exists]
  refine forall_congr' fun s => ?_
  cases h : hasLead s <;> simp [answer, h]

/-! ## One segment -/

/-- A segment that is refused changes nothing. -/
theorem offer_of_refused (h : hasLead segment = false) (c : Connections) :
    c.offer segment = (.error (.missingPrefix segment), c) := by
  simp [offer, push, h]

/-- After other segments, one more is joined to those that have been accepted if it is accepted too. -/
theorem offer_joined (segments : List String) (segment : String) :
    (joined (accepted segments)).offer segment =
      (answer segment, joined (accepted (segments ++ [segment]))) := by
  cases h : hasLead segment with
  | false => simp [offer_of_refused h, answer, accepted, h]
  | true =>
    have hpush := push_joined (fun s (hs : s ∈ accepted segments) => ne_empty_of_accepted hs) h
    rw [offer, hpush, accepted_append]
    simp [answer, accepted, h]

/-! ## A sequence of segments -/

theorem offerAll_joined (before segments : List String) :
    (joined (accepted before)).offerAll segments =
      (segments.map answer, joined (accepted (before ++ segments))) := by
  induction segments generalizing before with
  | nil => rw [offerAll, List.map_nil, List.append_nil]
  | cons segment rest ih =>
    have hrest := ih (before ++ [segment])
    rw [List.append_assoc, List.singleton_append] at hrest
    simp only [offerAll, offer_joined, hrest, List.map_cons]

theorem offerAll_empty (segments : List String) :
    empty.offerAll segments = (segments.map answer, joined (accepted segments)) :=
  offerAll_joined [] segments

/-- What a sequence of segments comes to when it is offered to an empty text. -/
structure Joins (segments : List String) : Prop where
  /-- What begins with one of the two leads begins like an address. -/
  hasLead_iff : ∀ s, hasLead s = true ↔
    ∃ rest, s = Host.ip4Lead ++ rest ∨ s = Host.dnsLead ++ rest
  /-- A segment is answered without regard to the others: it is accepted, or its lead is missing. -/
  answers : (empty.offerAll segments).1 =
    segments.map fun s => if hasLead s then .ok () else .error (.missingPrefix s)
  /-- A segment that is refused, at whatever place, leaves everything as it was. -/
  refused : ∀ before segment after, segments = before ++ segment :: after →
    hasLead segment = false →
    (empty.offerAll (before ++ [segment])).2 = (empty.offerAll before).2
  /-- The text is what has been accepted, in its order, with a comma between each two. -/
  text : (empty.offerAll segments).2.text = ",".intercalate (accepted segments)
  /-- There is no comma at an end or beside another one, unless it is part of a segment. -/
  pieces : accepted segments ≠ [] →
    Text.splitAt ',' (empty.offerAll segments).2.text.toList =
      (accepted segments).flatMap fun s => Text.splitAt ',' s.toList
  /-- The text is empty when nothing has been accepted. -/
  isEmpty_iff : (empty.offerAll segments).2.isEmpty = true ↔
    .ok () ∉ (empty.offerAll segments).1
  /-- Without commas in them, the segments that are read back are those that have been accepted. -/
  segments_eq : (∀ s ∈ accepted segments, CommaFree s) →
    (empty.offerAll segments).2.segments = accepted segments

/-- Whatever is offered, what is accepted is joined and can be read back. -/
theorem offered_segments_join (segments : List String) : Joins segments := by
  have hall := offerAll_empty segments
  have hne : ∀ s ∈ accepted segments, s ≠ "" := fun s hs => ne_empty_of_accepted hs
  refine ⟨fun s => hasLead_iff, by rw [hall]; rfl, fun before segment after _ hrefused => ?_,
    by rw [hall]; rfl, fun hsome => ?_, ?_, fun hcommas => ?_⟩
  · rw [offerAll_empty, offerAll_empty, accepted_append]
    simp [accepted, hrefused]
  · rw [hall, splitAt_joined hsome]
  · rw [hall, isEmpty_joined hne, List.isEmpty_iff, accepted_eq_nil_iff]
  · rw [hall, segments_joined_of_commaFree hcommas hne]

/-- Two addresses with something else between them, which is refused. -/
theorem offered_segments_join_mixed :
    empty.offerAll ["/ip4/10.0.0.1", "da-one", "/dns/da-two"] =
      ([.ok (), .error (.missingPrefix "da-one"), .ok ()], ⟨"/ip4/10.0.0.1,/dns/da-two"⟩) ∧
    Connections.segments ⟨"/ip4/10.0.0.1,/dns/da-two"⟩ = ["/ip4/10.0.0.1", "/dns/da-two"] := by
  have h := offered_segments_join ["/ip4/10.0.0.1", "da-one", "/dns/da-two"]
  have hrun : empty.offerAll ["/ip4/10.0.0.1", "da-one", "/dns/da-two"] =
      ([.ok (), .error (.missingPrefix "da-one"), .ok ()], ⟨"/ip4/10.0.0.1,/dns/da-two"⟩) := by
    decide +kernel
  have hsegments := h.segments_eq (by decide +kernel)
  rw [hrun] at hsegments
  exact ⟨hrun, hsegments⟩

end Connections

end Rendezvous
