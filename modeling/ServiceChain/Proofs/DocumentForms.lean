import ServiceChain.Form.Config
import ServiceChain.Form.Topology
import ServiceChain.Proofs.AddressTexts

/-! Values written as documents read back: addresses, locators, topologies, paths, placements,
configurations and flows. -/
namespace ServiceChain

namespace Document

/-- A value reads back from the document it is written as, and what is read and written once stays
as it is. -/
structure RoundTrips {α : Type} (encode : α → Document) (decode : Document → Decoded α) : Prop where
  readsBack : ∀ a, decode (encode a) = .ok a
  settles : ∀ d e, (decode d).map encode = .ok e → (decode e).map encode = .ok e

variable {α : Type} {encode : α → Document} {decode : Document → Decoded α}

theorem roundTrips_of_readsBack (h : ∀ a, decode (encode a) = .ok a) :
    RoundTrips encode decode where
  readsBack := h
  settles := by
    intro d e hwritten
    cases hread : decode d with
    | error reason =>
      rw [hread] at hwritten
      cases hwritten
    | ok a =>
      rw [hread] at hwritten
      cases hwritten
      rw [h a]
      rfl

/-- An optional value reads back unless null is what some value is written as. -/
theorem nullable_ofOption (h : RoundTrips encode decode) (hnull : ∀ a, (encode a).isNull = false)
    (o : Option α) : nullable decode (ofOption encode o) = .ok o := by
  cases o with
  | none => rfl
  | some a =>
    have hread : decode (encode a) = .ok a := h.readsBack a
    simp [ofOption, nullable, hnull a, hread, Except.map]

namespace Fields

/-- What a member, or none, gives a field. -/
def ofMember (place : Nat) (decode : Document → Decoded α) (absent : Reading α) :
    Option Document → Reading α
  | some d =>
    match decode d with
    | .ok a => .value a
    | .error reason => .fault place reason
  | none => absent

theorem read_ofMembers (names : List String) (members : List (String × Document)) (name : String)
    (absent : Reading α) :
    (ofMembers names members).read name decode absent =
      ofMember (names.filter (· < name)).length decode absent (members.lookup name) := by
  have hplace : (ofMembers names members).present.lookup name =
      (members.lookup name).map fun d => ((names.filter (· < name)).length, d) := by
    induction members with
    | nil => rfl
    | cons member rest ih =>
      obtain ⟨other, d⟩ := member
      simp only [ofMembers, List.map_cons, List.lookup_cons] at ih ⊢
      cases hsame : name == other with
      | true =>
        have heq : name = other := eq_of_beq hsame
        simp [heq]
      | false => simpa using ih
  rw [read, hplace]
  cases members.lookup name with
  | none => rfl
  | some d => rfl

@[simp] theorem required_ofMembers (names : List String) (members : List (String × Document))
    (name : String) :
    (ofMembers names members).required name decode =
      ofMember (names.filter (· < name)).length decode (.fault names.length .unfit)
        (members.lookup name) :=
  read_ofMembers names members name _

@[simp] theorem withDefault_ofMembers (names : List String) (members : List (String × Document))
    (name : String) (absent : α) :
    (ofMembers names members).withDefault name decode absent =
      ofMember (names.filter (· < name)).length decode (.value absent) (members.lookup name) :=
  read_ofMembers names members name _

@[simp] theorem optional_ofMembers (names : List String) (members : List (String × Document))
    (name : String) :
    (ofMembers names members).optional name decode =
      ofMember (names.filter (· < name)).length (nullable decode) (.value none)
        (members.lookup name) :=
  read_ofMembers names members name _

variable {place : Nat}

theorem ofMember_written (h : RoundTrips encode decode) {absent : Reading α} (a : α) :
    ofMember place decode absent (some (encode a)) = .value a := by
  simp only [ofMember, h.readsBack a]

theorem ofMember_ofOption (h : RoundTrips encode decode) (hnull : ∀ a, (encode a).isNull = false)
    {absent : Reading (Option α)} (o : Option α) :
    ofMember place (nullable decode) absent (some (ofOption encode o)) = .value o := by
  simp only [ofMember, nullable_ofOption h hnull o]

theorem ofMember_present (h : RoundTrips encode decode) (hnull : ∀ a, (encode a).isNull = false)
    (o : Option α) :
    ofMember place (nullable decode) (.value none) (o.map encode) = .value o := by
  cases o with
  | none => rfl
  | some a => exact ofMember_ofOption h hnull (some a)

end Fields

theorem lookup_present (name key : String) (o : Option α) :
    (present name encode o).lookup key = if key = name then o.map encode else none := by
  cases o with
  | none => simp [present]
  | some a =>
    by_cases hkey : key = name
    · simp [present, hkey]
    · have hother : (key == name) = false := beq_false_of_ne hkey
      simp [present, List.lookup_cons, hkey, hother]

theorem names_present (name : String) (o : Option α) :
    ((present name encode o).map (·.1)).Sublist [name] := by
  cases o with
  | none => exact List.nil_sublist _
  | some a => exact List.Sublist.refl _

theorem length_filter_name {members : List (String × Document)} (h : (members.map (·.1)).Nodup)
    (name : String) : (members.filter (·.1 = name)).length ≤ 1 := by
  induction members with
  | nil => simp
  | cons member rest ih =>
    obtain ⟨hnew, hrest⟩ := List.nodup_cons.mp h
    by_cases hname : member.1 = name
    · have hnone : rest.filter (·.1 = name) = [] := by
        refine List.filter_eq_nil_iff.mpr fun other hother hsame => hnew ?_
        have hother : other.1 ∈ rest.map (·.1) := List.mem_map_of_mem hother
        rwa [of_decide_eq_true hsame, ← hname] at hother
      simp [hname, hnone]
    · simpa [hname] using ih hrest

theorem toFields_record {dialect : Dialect} {names : List String} {read : Fields → Reading α}
    {members : List (String × Document)} {a : α} (hnames : (members.map (·.1)).Nodup)
    (hread : read (.ofMembers names members) = .value a) :
    toFields dialect names read (.record members) = .ok a := by
  have honce : names.all fun name => (members.filter (·.1 = name)).length ≤ 1 := by
    simpa only [List.all_eq_true, decide_eq_true_eq] using fun name _ =>
      length_filter_name hnames name
  simp only [toFields, honce, hread]
  rfl

theorem text_roundTrips : RoundTrips text (·.toText) := roundTrips_of_readsBack fun _ => rfl

theorem plainText_roundTrips : RoundTrips text (·.toPlainText) :=
  roundTrips_of_readsBack fun _ => rfl

theorem flag_roundTrips : RoundTrips flag (·.toBool) := roundTrips_of_readsBack fun _ => rfl

theorem uint8_roundTrips : RoundTrips ofUInt8 (·.toUInt8) := roundTrips_of_readsBack toUInt8_ofUInt8

theorem uint16_roundTrips : RoundTrips ofUInt16 (·.toUInt16) :=
  roundTrips_of_readsBack toUInt16_ofUInt16

theorem uint32_roundTrips : RoundTrips ofUInt32 (·.toUInt32) :=
  roundTrips_of_readsBack toUInt32_ofUInt32

theorem uint64_roundTrips : RoundTrips ofUInt64 (·.toUInt64) :=
  roundTrips_of_readsBack toUInt64_ofUInt64

theorem RoundTrips.list (h : RoundTrips encode decode) :
    RoundTrips (ofList encode) (·.toList decode) :=
  roundTrips_of_readsBack (toList_ofList h.readsBack)

end Document

open Document (Dialect RoundTrips roundTrips_of_readsBack)
open Document.Fields (ofMember_written ofMember_ofOption ofMember_present)

theorem MacAddress.roundTrips : RoundTrips toDocument ofDocument := by
  refine roundTrips_of_readsBack fun m => ?_
  have hchecked : Document.checked (parse m.text) = .ok m := by
    rw [parse_text]
    rfl
  simp only [toDocument, ofDocument, Document.toText, bind, Except.bind, hchecked]

theorem IpAddress.roundTrips : RoundTrips toDocument ofDocument := by
  refine roundTrips_of_readsBack fun ip => ?_
  have hrequired : Document.require (parse? ip.text) = .ok ip := by
    rw [parse?_text]
    rfl
  simp only [toDocument, ofDocument, Document.toText, bind, Except.bind, hrequired]

theorem VlanId.roundTrips : RoundTrips toDocument ofDocument := by
  refine roundTrips_of_readsBack fun v => ?_
  have hbound : (Document.natural v.number).toBounded UInt16.size = .ok v.number :=
    if_pos (Nat.lt_of_le_of_lt v.le_max (by decide))
  have hchecked : Document.checked (checked v.number) = .ok v := by
    rw [checked, ofNat?_number]
    rfl
  simp only [toDocument, ofDocument, hbound, bind, Except.bind, hchecked]

theorem MplsLabel.roundTrips : RoundTrips toDocument ofDocument := by
  refine roundTrips_of_readsBack fun l => ?_
  have hbound : (Document.natural l.number).toBounded UInt32.size = .ok l.number :=
    if_pos (Nat.lt_of_le_of_lt l.le_max (by decide))
  have hchecked : Document.checked (checked l.number) = .ok l := by
    rw [checked, ofNat?_number]
    rfl
  simp only [toDocument, ofDocument, hbound, bind, Except.bind, hchecked]

theorem Locator.ofDocument_record {kind : LocatorKind} {members : List (String × Document)}
    (hkind : members.filter (·.1 = "type") = [("type", .text kind.name)]) :
    ofDocument (.record members) = ofFields kind (.record members) := by
  have hfound : LocatorKind.table.lookup kind.name = some kind := by
    cases kind <;> simp [LocatorKind.table, LocatorKind.name, List.lookup_cons]
  have hread : (Document.text kind.name).toText = pure kind.name := rfl
  simp only [ofDocument, hkind, hread, pure_bind, hfound]

theorem Locator.roundTrips : RoundTrips toDocument ofDocument := by
  refine roundTrips_of_readsBack fun l => ?_
  have hread : ofDocument l.toDocument = ofFields l.kind l.toDocument := by
    cases l <;> exact ofDocument_record (by simp [kind, LocatorKind.name])
  rw [hread]
  cases l with
  | ip address port =>
    simp only [ofFields, toDocument, kind]
    refine Document.toFields_record (by simp) ?_
    simp [List.lookup_cons, ofMember_written IpAddress.roundTrips,
      ofMember_ofOption Document.uint16_roundTrips (fun _ => rfl)]
  | mac address vlan =>
    simp only [ofFields, toDocument, kind]
    refine Document.toFields_record (by simp) ?_
    simp [List.lookup_cons, ofMember_written MacAddress.roundTrips,
      ofMember_ofOption VlanId.roundTrips (fun _ => rfl)]
  | mpls label =>
    simp only [ofFields, toDocument, kind]
    refine Document.toFields_record (by simp) ?_
    simp [List.lookup_cons, ofMember_written MplsLabel.roundTrips]
  | logicalInterface interface address =>
    simp only [ofFields, toDocument, kind]
    refine Document.toFields_record (by simp) ?_
    simp [List.lookup_cons, ofMember_written Document.plainText_roundTrips,
      ofMember_ofOption MacAddress.roundTrips (fun _ => rfl)]

theorem ForwarderLocator.roundTrips (dialect : Dialect) :
    RoundTrips toDocument (ofDocument dialect) := by
  refine roundTrips_of_readsBack fun l => Document.toFields_record (by simp) ?_
  simp [List.lookup_cons, ofMember_written Document.text_roundTrips,
    ofMember_written Locator.roundTrips,
    ofMember_ofOption Document.uint32_roundTrips (fun _ => rfl),
    ofMember_ofOption MacAddress.roundTrips (fun _ => rfl),
    ofMember_ofOption Document.text_roundTrips (fun _ => rfl)]

theorem DictionaryEntry.roundTrips (dialect : Dialect) :
    RoundTrips toDocument (ofDocument dialect) := by
  refine roundTrips_of_readsBack fun e => Document.toFields_record (by simp) ?_
  simp [List.lookup_cons, ofMember_written Document.text_roundTrips,
    ofMember_ofOption Document.text_roundTrips (fun _ => rfl),
    ofMember_ofOption Document.uint32_roundTrips (fun _ => rfl),
    ofMember_ofOption MacAddress.roundTrips (fun _ => rfl)]

theorem Forwarder.roundTrips (dialect : Dialect) : RoundTrips toDocument (ofDocument dialect) := by
  refine roundTrips_of_readsBack fun f => Document.toFields_record (by simp) ?_
  simp [List.lookup_cons, ofMember_written Document.text_roundTrips,
    ofMember_written (ForwarderLocator.roundTrips dialect).list,
    ofMember_written (DictionaryEntry.roundTrips dialect).list,
    ofMember_ofOption Document.text_roundTrips (fun _ => rfl),
    ofMember_ofOption Document.uint32_roundTrips (fun _ => rfl)]

theorem FunctionLocator.roundTrips (dialect : Dialect) :
    RoundTrips toDocument (ofDocument dialect) := by
  refine roundTrips_of_readsBack fun l => Document.toFields_record (by simp) ?_
  simp [List.lookup_cons, ofMember_written Document.text_roundTrips,
    ofMember_written Locator.roundTrips]

theorem ServiceFunction.roundTrips (dialect : Dialect) :
    RoundTrips toDocument (ofDocument dialect) := by
  refine roundTrips_of_readsBack fun sf => Document.toFields_record (by simp) ?_
  simp [List.lookup_cons, ofMember_written Document.text_roundTrips,
    ofMember_written (FunctionLocator.roundTrips dialect).list,
    ofMember_written Document.flag_roundTrips]

theorem Topology.roundTrips (dialect : Dialect) : RoundTrips toDocument (ofDocument dialect) := by
  refine roundTrips_of_readsBack fun t => Document.toFields_record (by simp) ?_
  simp [List.lookup_cons, ofMember_written (Forwarder.roundTrips dialect).list,
    ofMember_written (ServiceFunction.roundTrips dialect).list]

theorem Transport.roundTrips (dialect : Dialect) : RoundTrips toDocument (ofDocument dialect) := by
  refine roundTrips_of_readsBack fun t => ?_
  cases t <;> rfl

theorem Encapsulation.roundTrips (dialect : Dialect) :
    RoundTrips toDocument (ofDocument dialect) := by
  refine roundTrips_of_readsBack fun e => ?_
  cases e <;> rfl

theorem Direction.roundTrips (dialect : Dialect) : RoundTrips toDocument (ofDocument dialect) := by
  refine roundTrips_of_readsBack fun dir => ?_
  cases dir <;> rfl

theorem Hop.roundTrips (dialect : Dialect) : RoundTrips toDocument (ofDocument dialect) := by
  refine roundTrips_of_readsBack fun h => Document.toFields_record (by simp) ?_
  simp [List.lookup_cons, ofMember_written Document.text_roundTrips,
    ofMember_ofOption Document.text_roundTrips (fun _ => rfl),
    ofMember_written Document.uint8_roundTrips]

theorem ServicePath.roundTrips (dialect : Dialect) :
    RoundTrips toDocument (ofDocument dialect) := by
  refine roundTrips_of_readsBack fun p => Document.toFields_record (by simp) ?_
  simp [List.lookup_cons, ofMember_written Document.text_roundTrips,
    ofMember_written Document.uint32_roundTrips, ofMember_written (Hop.roundTrips dialect).list,
    ofMember_written (Transport.roundTrips dialect),
    ofMember_written (Encapsulation.roundTrips dialect),
    ofMember_written Document.uint8_roundTrips, ofMember_written (Direction.roundTrips dialect)]

theorem Placement.roundTrips : RoundTrips toDocument ofDocument := by
  refine roundTrips_of_readsBack fun p => ?_
  simp [toDocument, ofDocument, Except.map]

theorem Tunnel.roundTrips (dialect : Dialect) : RoundTrips toDocument (ofDocument dialect) := by
  refine roundTrips_of_readsBack fun t => Document.toFields_record (by simp) ?_
  simp [List.lookup_cons, ofMember_written Placement.roundTrips,
    ofMember_written Document.text_roundTrips]

namespace Placements

def interfacesDocument (interfaces : List (String × Placement)) : Document :=
  .record (interfaces.map fun (name, id) => (name, id.toDocument))

theorem interfaces_roundTrips : RoundTrips interfacesDocument interfacesOf := by
  refine roundTrips_of_readsBack fun interfaces => ?_
  simp only [interfacesDocument, interfacesOf, Document.toMembers]
  change List.mapM _ _ = Except.ok interfaces
  induction interfaces with
  | nil => rfl
  | cons first rest ih =>
    have hfirst : Placement.ofDocument first.2.toDocument = .ok first.2 :=
      Placement.roundTrips.readsBack first.2
    simp only [List.map_cons, List.mapM_cons, hfirst, ih]
    rfl

theorem roundTrips (dialect : Dialect) : RoundTrips toDocument (ofDocument dialect) := by
  refine roundTrips_of_readsBack fun p => Document.toFields_record (by simp) ?_
  have hinterfaces : Document.record (p.interfaces.map fun (name, id) => (name, id.toDocument)) =
      interfacesDocument p.interfaces := rfl
  simp [List.lookup_cons, hinterfaces, ofMember_written interfaces_roundTrips,
    ofMember_written (Tunnel.roundTrips dialect).list]

end Placements

theorem VlanRange.roundTrips (dialect : Dialect) : RoundTrips toDocument (ofDocument dialect) := by
  refine roundTrips_of_readsBack fun r => Document.toFields_record (by simp) ?_
  simp [List.lookup_cons, ofMember_written Document.uint16_roundTrips]

theorem LogicalTables.roundTrips (dialect : Dialect) :
    RoundTrips toDocument (ofDocument dialect) := by
  refine roundTrips_of_readsBack fun t => ?_
  simp only [ofDocument, toDocument]
  refine Document.toFields_record (by simp) ?_
  simp [List.lookup_cons, ofMember_written Document.uint8_roundTrips]

theorem Config.roundTrips (dialect : Dialect) : RoundTrips toDocument (ofDocument dialect) := by
  refine roundTrips_of_readsBack fun c => Document.toFields_record (by simp) ?_
  simp [List.lookup_cons, ofMember_written Document.uint8_roundTrips,
    ofMember_ofOption Document.uint8_roundTrips (fun _ => rfl),
    ofMember_written (VlanRange.roundTrips dialect),
    ofMember_written (LogicalTables.roundTrips dialect)]

theorem TableNumbers.roundTrips : RoundTrips toDocument ofDocument := by
  refine roundTrips_of_readsBack fun t => Document.toFields_record (by simp) ?_
  simp [List.lookup_cons, ofMember_written Document.uint8_roundTrips]

theorem FlowRole.roundTrips (dialect : Dialect) : RoundTrips toDocument (ofDocument dialect) := by
  refine roundTrips_of_readsBack fun k => ?_
  cases k <;> rfl

theorem Port.isNull_toDocument (port : Port) : port.toDocument.isNull = false := by
  cases port <;> rfl

section Tagged

variable {dialect : Dialect} (hdialect : dialect ≠ .yaml)
include hdialect

theorem Document.readsBack_tagged {α β : Type} {encode : α → Document}
    {decode : Document → Decoded α} {make : α → β} {name : String}
    {ofTagged : String × Option Document → Decoded β} (h : RoundTrips encode decode)
    (hname : ∀ content, ofTagged (name, content) = (do return make (← toContent decode content)))
    (a : α) :
    (do ofTagged (← (record [(name, encode a)]).toTagged dialect)) = .ok (make a) := by
  have htagged : (record [(name, encode a)]).toTagged dialect = .ok (name, some (encode a)) := by
    cases dialect with
    | json => rfl
    | lenientJson => rfl
    | yaml => exact absurd rfl hdialect
  have hread : toContent decode (some (encode a)) = .ok a := h.readsBack a
  rw [htagged]
  change ofTagged (name, some (encode a)) = .ok (make a)
  rw [hname, hread]
  rfl

theorem TableRef.roundTrips : RoundTrips toDocument (ofDocument dialect) := by
  refine roundTrips_of_readsBack fun t => ?_
  cases t with
  | raw id => exact Document.readsBack_tagged hdialect Document.uint8_roundTrips (fun _ => rfl) id
  | _ => rfl

theorem FlowOwner.roundTrips : RoundTrips toDocument (ofDocument dialect) := by
  refine roundTrips_of_readsBack fun owner => ?_
  cases owner with
  | unowned => rfl
  | path id => exact Document.readsBack_tagged hdialect Document.uint32_roundTrips (fun _ => rfl) id

theorem Port.roundTrips : RoundTrips toDocument (ofDocument dialect) := by
  refine roundTrips_of_readsBack fun port => ?_
  cases port with
  | number n => exact Document.readsBack_tagged hdialect Document.uint32_roundTrips (fun _ => rfl) n
  | interface name =>
    exact Document.readsBack_tagged hdialect Document.text_roundTrips (fun _ => rfl) name
  | _ => rfl

theorem FlowAction.roundTrips : RoundTrips toDocument (ofDocument dialect) := by
  refine roundTrips_of_readsBack fun action => ?_
  cases action with
  | goto t =>
    exact Document.readsBack_tagged hdialect (TableRef.roundTrips hdialect) (fun _ => rfl) t
  | resubmit t =>
    exact Document.readsBack_tagged hdialect (TableRef.roundTrips hdialect) (fun _ => rfl) t
  | output port =>
    exact Document.readsBack_tagged hdialect (Port.roundTrips hdialect) (fun _ => rfl) port
  | setEthSrc mac =>
    exact Document.readsBack_tagged hdialect MacAddress.roundTrips (fun _ => rfl) mac
  | setEthDst mac =>
    exact Document.readsBack_tagged hdialect MacAddress.roundTrips (fun _ => rfl) mac
  | pushVlan vlan =>
    exact Document.readsBack_tagged hdialect VlanId.roundTrips (fun _ => rfl) vlan
  | pushMpls label =>
    exact Document.readsBack_tagged hdialect MplsLabel.roundTrips (fun _ => rfl) label
  | writeMetadata value =>
    exact Document.readsBack_tagged hdialect Document.uint64_roundTrips (fun _ => rfl) value
  | setTunnelDst ip =>
    exact Document.readsBack_tagged hdialect IpAddress.roundTrips (fun _ => rfl) ip
  | _ => rfl

theorem FlowMatch.roundTrips : RoundTrips toDocument (ofDocument dialect) := by
  refine roundTrips_of_readsBack fun m => Document.toFields_record ?_ ?_
  · have hnames : ["in_port", "eth_type", "eth_src", "eth_dst", "vlan", "mpls_label", "nsp", "nsi",
        "nsh_c1", "tun_dst", "metadata"].Nodup := by simp
    refine List.Nodup.sublist ?_ hnames
    simp only [List.map_append]
    exact ((((((((((Document.names_present _ _).append (Document.names_present _ _)).append
      (Document.names_present _ _)).append (Document.names_present _ _)).append
      (Document.names_present _ _)).append (Document.names_present _ _)).append
      (Document.names_present _ _)).append (Document.names_present _ _)).append
      (Document.names_present _ _)).append (Document.names_present _ _)).append
      (Document.names_present _ _)
  · simp [List.lookup_append, Document.lookup_present,
      ofMember_present (Port.roundTrips hdialect) Port.isNull_toDocument,
      ofMember_present Document.uint16_roundTrips (fun _ => rfl),
      ofMember_present MacAddress.roundTrips (fun _ => rfl),
      ofMember_present VlanId.roundTrips (fun _ => rfl),
      ofMember_present MplsLabel.roundTrips (fun _ => rfl),
      ofMember_present Document.uint32_roundTrips (fun _ => rfl),
      ofMember_present Document.uint8_roundTrips (fun _ => rfl),
      ofMember_present IpAddress.roundTrips (fun _ => rfl),
      ofMember_present Document.uint64_roundTrips (fun _ => rfl)]

end Tagged

/-- Whatever is written in JSON reads back, and what is read settles when it is written again. -/
theorem Document.forms_round_trip (dialect : Dialect) (h : dialect ≠ .yaml) :
    RoundTrips MacAddress.toDocument MacAddress.ofDocument ∧
      RoundTrips VlanId.toDocument VlanId.ofDocument ∧
      RoundTrips MplsLabel.toDocument MplsLabel.ofDocument ∧
      RoundTrips Locator.toDocument Locator.ofDocument ∧
      RoundTrips ForwarderLocator.toDocument (ForwarderLocator.ofDocument dialect) ∧
      RoundTrips DictionaryEntry.toDocument (DictionaryEntry.ofDocument dialect) ∧
      RoundTrips Forwarder.toDocument (Forwarder.ofDocument dialect) ∧
      RoundTrips FunctionLocator.toDocument (FunctionLocator.ofDocument dialect) ∧
      RoundTrips ServiceFunction.toDocument (ServiceFunction.ofDocument dialect) ∧
      RoundTrips Hop.toDocument (Hop.ofDocument dialect) ∧
      RoundTrips ServicePath.toDocument (ServicePath.ofDocument dialect) ∧
      RoundTrips Topology.toDocument (Topology.ofDocument dialect) ∧
      RoundTrips Placements.toDocument (Placements.ofDocument dialect) ∧
      RoundTrips Config.toDocument (Config.ofDocument dialect) ∧
      RoundTrips LogicalTables.toDocument (LogicalTables.ofDocument dialect) ∧
      RoundTrips TableNumbers.toDocument TableNumbers.ofDocument ∧
      RoundTrips TableRef.toDocument (TableRef.ofDocument dialect) ∧
      RoundTrips FlowOwner.toDocument (FlowOwner.ofDocument dialect) ∧
      RoundTrips FlowRole.toDocument (FlowRole.ofDocument dialect) ∧
      RoundTrips Port.toDocument (Port.ofDocument dialect) ∧
      RoundTrips FlowMatch.toDocument (FlowMatch.ofDocument dialect) ∧
      RoundTrips FlowAction.toDocument (FlowAction.ofDocument dialect) :=
  ⟨MacAddress.roundTrips, VlanId.roundTrips, MplsLabel.roundTrips, Locator.roundTrips,
    ForwarderLocator.roundTrips dialect, DictionaryEntry.roundTrips dialect,
    Forwarder.roundTrips dialect, FunctionLocator.roundTrips dialect,
    ServiceFunction.roundTrips dialect, Hop.roundTrips dialect, ServicePath.roundTrips dialect,
    Topology.roundTrips dialect, Placements.roundTrips dialect, Config.roundTrips dialect,
    LogicalTables.roundTrips dialect, TableNumbers.roundTrips, TableRef.roundTrips h,
    FlowOwner.roundTrips h, FlowRole.roundTrips dialect, Port.roundTrips h,
    FlowMatch.roundTrips h, FlowAction.roundTrips h⟩

def tunnelMatch : FlowMatch :=
  { FlowMatch.any with
    inPort := some (.interface "tap0")
    tunDst := some (.v6 0x2001 0xdb8 0 0 0 0 0 1) }

theorem Document.forms_round_trip_tunnel :
    tunnelMatch.toDocument =
        .record [("in_port", .record [("interface", .text "tap0")]),
          ("tun_dst", .text "2001:db8::1")] ∧
      FlowMatch.ofDocument .json tunnelMatch.toDocument = .ok tunnelMatch := by
  obtain ⟨-, -, -, -, -, -, -, -, -, -, -, -, -, -, -, -, -, -, -, -, hmatch, -⟩ :=
    forms_round_trip .json (by decide)
  exact ⟨by rfl, hmatch.readsBack tunnelMatch⟩

end ServiceChain
