import Countersign.Proofs.Hex
import Countersign.Proofs.Json
import Countersign.Wire.Config
import Countersign.Wire.Event
import Countersign.Wire.Payload
import Countersign.Wire.Registry

/-!
# Wire forms are read back

A wire form is `Lawful` if decoding undoes encoding wherever there is room for as many levels as the
values of the type nest. The law goes from the parts of a type to the type: `decode_fields` is the step
for structures, `decode_tagged` the one for unions. The forms of all types nest much less deep than a
text may, so with `Json.parse?_render` every value is read back from its text
(`parse?_render_of_every_type`).
-/

namespace Countersign

namespace WireContext

variable {c : WireContext}

theorem exists_enter (h : 0 < c.room) : ∃ c', c.enter? = some c' ∧ c'.room + 1 = c.room ∧
    c'.inUnion = c.inUnion := by
  obtain ⟨room, inUnion⟩ := c
  cases room with
  | zero => exact absurd h (Nat.lt_irrefl 0)
  | succ room => exact ⟨⟨room, inUnion⟩, rfl, rfl, rfl⟩

end WireContext

namespace Wire

/-- What is encoded is read back, where there is room for a number of levels; and it is not null. -/
class Lawful (α : Type) [Wire α] (levels : outParam Nat) : Prop where
  decode_encode (c : WireContext) (a : α) (room : levels ≤ c.room) : decode c (encode a) = some a
  encode_ne_null (a : α) : encode a ≠ .null

open Lawful (decode_encode encode_ne_null)

variable {α : Type} [Wire α] {levels n : Nat} {c : WireContext} {j : Json} {name : String}

/-! ## Numbers, texts and lists -/

theorem wholeNumber?_nat {α : Type} {ofNat : Nat → α} {toNat : α → Nat} (a : α)
    (h : ofNat (toNat a) = a) : wholeNumber? ofNat toNat (.nat (toNat a)) = some a := by
  simp [wholeNumber?, Json.nat, h]

instance : Lawful UInt8 0 where
  decode_encode _ b _ := wholeNumber?_nat b UInt8.ofNat_toNat
  encode_ne_null _ := Json.noConfusion

instance : Lawful UInt64 0 where
  decode_encode _ w _ := wholeNumber?_nat w UInt64.ofNat_toNat
  encode_ne_null _ := Json.noConfusion

instance : Lawful Amount 0 where
  decode_encode _ a _ := wholeNumber?_nat a (BitVec.ofNat_toNat _ _)
  encode_ne_null _ := Json.noConfusion

instance : Lawful Bool 0 where
  decode_encode _ _ _ := rfl
  encode_ne_null _ := Json.noConfusion

instance : Lawful String 0 where
  decode_encode _ _ _ := rfl
  encode_ne_null _ := Json.noConfusion

theorem mapM_map_eq_some {α β γ : Type} {f : α → β} {g : β → Option γ} {h : α → γ} {as : List α}
    (each : ∀ a ∈ as, g (f a) = some (h a)) : (as.map f).mapM g = some (as.map h) := by
  induction as with
  | nil => rfl
  | cons a as ih =>
    obtain ⟨first, rest⟩ := List.forall_mem_cons.mp each
    rw [List.map_cons, List.mapM_cons, first, ih rest]
    rfl

instance [Lawful α levels] : Lawful (List α) (levels + 1) where
  decode_encode c as room := by
    obtain ⟨c', enter, hroom, -⟩ := c.exists_enter (by omega)
    have each : ∀ a ∈ as, decode c' (encode a) = some (id a) :=
      fun a _ => decode_encode c' a (by omega)
    show (c.enter?.bind fun c => (as.map encode).mapM (decode c)) = some as
    rw [enter, Option.bind_some, mapM_map_eq_some each, List.map_id]
  encode_ne_null _ := Json.noConfusion

instance [Key α] [DecidableEq α] [Lawful α levels] : Lawful (SortedSet α) (levels + 1) where
  decode_encode c s room := by
    show (decode c (encode s.toList)).map SortedSet.ofList = some s
    rw [decode_encode c s.toList room, Option.map_some, SortedSet.ofList_toList]
  encode_ne_null s := encode_ne_null s.toList

instance : Lawful (FixedBytes n) 1 where
  decode_encode c b room := by
    show (decode c (encode b.toList)).bind (FixedBytes.ofList? n) = some b
    rw [decode_encode c b.toList room, Option.bind_some, FixedBytes.ofList?_toList]
  encode_ne_null b := encode_ne_null b.toList

instance [Lawful α levels] : Lawful (SortedMap String α) (levels + 1) where
  decode_encode c m room := by
    obtain ⟨c', enter, hroom, -⟩ := c.exists_enter (by omega)
    have each : ∀ e ∈ m.entries, (do return (← some e.1, ← decode c' (encode e.2))) =
        some (id e) := by
      intro e _
      rw [decode_encode c' e.2 (by omega)]
      rfl
    show (do
      let c ← c.enter?
      let entries ← ((m.entries.map fun e => (e.1, encode e.2)).map fun e => (some e.1, e.2)).mapM
        (fun m : JsonText × Json => do return (← m.1, ← decode c m.2))
      return SortedMap.ofList entries) = some m
    rw [enter, Option.bind_eq_bind, Option.bind_some, List.map_map, mapM_map_eq_some each,
      List.map_id]
    exact congrArg some (SortedMap.ofList_entries m)
  encode_ne_null _ := Json.noConfusion

/-! ## Structures -/

section Fields

variable {members : List (String × Json)}

theorem membersNamed_of_not_mem (h : name ∉ members.map Prod.fst) :
    membersNamed name (members.map fun m => (some m.1, m.2)) = [] := by
  rw [membersNamed, List.filter_eq_nil_iff.mpr]
  · rfl
  · intro m hm
    obtain ⟨member, hmember, rfl⟩ := List.mem_map.mp hm
    have hne : member.1 ≠ name := fun he => h (List.mem_map.mpr ⟨member, hmember, he⟩)
    simpa using hne

theorem membersNamed_fields (nodup : (members.map Prod.fst).Nodup) (h : (name, j) ∈ members) :
    membersNamed name (members.map fun m => (some m.1, m.2)) = [j] := by
  induction members with
  | nil => cases h
  | cons member members ih =>
    obtain ⟨fresh, nodup⟩ := List.nodup_cons.mp nodup
    rcases List.mem_cons.mp h with rfl | h
    · have rest := membersNamed_of_not_mem fresh
      rw [membersNamed] at rest
      rw [List.map_cons, membersNamed, List.filter_cons_of_pos (by simp), List.map_cons, rest]
    · have hne : member.1 ≠ name := by
        rintro rfl
        exact fresh (List.mem_map.mpr ⟨_, h, rfl⟩)
      rw [List.map_cons, membersNamed, List.filter_cons_of_neg (by simpa using hne)]
      exact ih nodup h

theorem slots?_fields (nodup : (members.map Prod.fst).Nodup) :
    slots? (members.map Prod.fst) (.fields members) =
      some (members.map fun m => .filled m.2) := by
  have named : (members.map fun m => ((some m.1, m.2) : JsonText × Json)).all
      (fun m => m.1.isSome) = true := by
    simp
  rw [Json.fields, slots?, if_pos named]
  refine mapM_map_eq_some fun m hm => ?_
  rw [memberSlot?, membersNamed_fields nodup hm]

end Fields

/-- Fields that are read one after the other are found in their places. -/
theorem read_fields {α : Type} {a : α} {names : List String} {members : List (String × Json)}
    {read : List Slot → Option α} (listed : members.map Prod.fst = names) (nodup : names.Nodup)
    (reads : read (members.map fun m => .filled m.2) = some a) :
    (do
      let slots ← slots? names (.fields members)
      read slots) = some a := by
  subst listed
  rw [slots?_fields nodup]
  exact reads

/-- The step for structures: it is enough to read every field back from its place. -/
theorem decode_fields {α : Type} {a : α} {c : WireContext} {names : List String}
    {members : List (String × Json)} {read : WireContext → List Slot → Option α}
    (room : 0 < c.room) (listed : members.map Prod.fst = names) (nodup : names.Nodup)
    (reads : ∀ c' : WireContext, c'.room + 1 = c.room →
      read c' (members.map fun m => .filled m.2) = some a) :
    (do
      let c ← c.enter?
      let slots ← slots? names (.fields members)
      read c slots) = some a := by
  obtain ⟨c', enter, hroom, -⟩ := c.exists_enter room
  rw [enter, Option.bind_eq_bind, Option.bind_some]
  exact read_fields listed nodup (reads c' hroom)

section Slots

variable [Lawful α levels] (room : levels ≤ c.room)

include room

@[simp] theorem required_encode (a : α) : required c (.filled (encode a)) = some a :=
  decode_encode c a room

@[simp] theorem withDefault_encode (a missing : α) :
    withDefault c missing (.filled (encode a)) = some a :=
  decode_encode c a room

theorem nullable?_encodeOption (a? : Option α) : nullable? c (encodeOption a?) = some a? := by
  cases a? with
  | none => rfl
  | some a =>
    rw [encodeOption, nullable?.eq_def]
    split
    · next h => exact absurd h (encode_ne_null a)
    · rw [decode_encode c a room]
      rfl

@[simp] theorem optional_encodeOption (a? : Option α) :
    optional c (.filled (encodeOption a?)) = some a? :=
  nullable?_encodeOption room a?

@[simp] theorem optionalAnywhere_encodeOption (a? : Option α) :
    optionalAnywhere c (.filled (encodeOption a?)) = some a? :=
  nullable?_encodeOption room a?

end Slots

/-! ## Unions -/

theorem isKept_nat {room : Nat} (h : n < UInt64.size) : isKept room (.nat n) = true :=
  Json.isFinite_of_lt h

theorem isKept_bytes {room : Nat} (h : 0 < room) (bs : Bytes) : isKept room (encode bs) = true := by
  have all : allKept (room - 1) (bs.map encode) = true := by
    induction bs with
    | nil => rfl
    | cons b bs ih =>
      have hb : isKept (room - 1) (encode b) = true :=
        isKept_nat (Nat.lt_trans b.toNat_lt (by decide))
      rw [List.map_cons, allKept, hb, ih]
      rfl
  show (decide (0 < room) && allKept (room - 1) (bs.map encode)) = true
  rw [all, decide_eq_true h]
  rfl

theorem membersKept_cons {room : Nat} {members : List (String × Json)}
    (kept : isKept room j = true)
    (rest : membersKept room (members.map fun m => (some m.1, m.2)) = true) :
    membersKept room (((name, j) :: members).map fun m => (some m.1, m.2)) = true := by
  rw [List.map_cons, membersKept, kept, rest]
  rfl

/-- The tag of a union is found among its members, and the others are kept. -/
theorem tagged?_fields {tag : String} {members : List (String × Json)}
    (other : tag ∉ members.map Prod.fst)
    (kept : membersKept c.room (members.map fun m => (some m.1, m.2)) = true) :
    tagged? tag c (.fields ((tag, .text name) :: members)) = some (name, .fields members) := by
  have named : membersNamed tag (((tag, .text name) :: members).map fun m => (some m.1, m.2)) =
      [.text name] := by
    have rest := membersNamed_of_not_mem other
    rw [membersNamed] at rest
    rw [List.map_cons, membersNamed, List.filter_cons_of_pos (by simp), List.map_cons, rest]
  have others : (((tag, Json.text name) :: members).map fun m => (some m.1, m.2)).filter
      (fun m : JsonText × Json => m.1 != some tag) = members.map fun m => (some m.1, m.2) := by
    rw [List.map_cons, List.filter_cons_of_neg (by simp), List.filter_eq_self]
    intro m hm
    obtain ⟨member, hmember, rfl⟩ := List.mem_map.mp hm
    have hne : member.1 ≠ tag := fun he => other (List.mem_map.mpr ⟨member, hmember, he⟩)
    simpa using hne
  rw [Json.fields, tagged?, named]
  show (if membersKept c.room ((((tag, Json.text name) :: members).map fun m =>
      (some m.1, m.2)).filter fun m : JsonText × Json => m.1 != some tag) then
    some (name, Json.object ((((tag, Json.text name) :: members).map fun m =>
      (some m.1, m.2)).filter fun m : JsonText × Json => m.1 != some tag)) else none) = _
  rw [others, if_pos kept]
  rfl

/-- The step for unions: it is enough to read the other fields of a variant. -/
theorem decode_tagged {α : Type} {a : α} {c : WireContext} {tag : String}
    {members : List (String × Json)} {read : WireContext → String → Json → Option α}
    (names : List String) (room : 1 < c.room) (listed : members.map Prod.fst = names)
    (other : tag ∉ names)
    (kept : ∀ room, 0 < room → membersKept room (members.map fun m => (some m.1, m.2)) = true)
    (reads : ∀ c' : WireContext, c'.room + 1 = c.room →
      read c' name (.fields members) = some a) :
    (do
      let c ← c.enter?
      let (tag, rest) ← tagged? tag c (.fields ((tag, .text name) :: members))
      read { c with inUnion := true } tag rest) = some a := by
  obtain ⟨c', enter, hroom, -⟩ := c.exists_enter (by omega)
  subst listed
  rw [enter, Option.bind_eq_bind, Option.bind_some,
    tagged?_fields other (kept c'.room (by omega))]
  exact reads { c' with inUnion := true } hroom

end Wire

open Wire Lawful

/-! ## Identifiers and names -/

instance : Lawful Identity 1 where
  decode_encode c i room := congrArg (Option.map Identity.mk) (decode_encode c i.bytes room)
  encode_ne_null i := encode_ne_null i.bytes

instance : Lawful OperationType 1 where
  decode_encode c o room := congrArg (Option.map OperationType.mk) (decode_encode c o.bytes room)
  encode_ne_null o := encode_ne_null o.bytes

instance : Lawful RoleId 1 where
  decode_encode c r room := congrArg (Option.map RoleId.mk) (decode_encode c r.bytes room)
  encode_ne_null r := encode_ne_null r.bytes

instance : Lawful Selector 1 where
  decode_encode c s room := congrArg (Option.map Selector.mk) (decode_encode c s.bytes room)
  encode_ne_null s := encode_ne_null s.bytes

instance : Lawful TxId 0 where
  decode_encode c t room := congrArg (Option.map TxId.mk) (decode_encode c t.number room)
  encode_ne_null t := encode_ne_null t.number

instance : Lawful Digest 1 where
  decode_encode c g room := congrArg (Option.map Digest.mk) (decode_encode c g.bytes room)
  encode_ne_null g := encode_ne_null g.bytes

instance : Lawful Action 0 where
  decode_encode _ a _ := by cases a <;> rfl
  encode_ne_null _ := Json.noConfusion

instance : Lawful Status 0 where
  decode_encode _ s _ := by cases s <;> rfl
  encode_ne_null _ := Json.noConfusion

instance : Lawful ExecutionKind 0 where
  decode_encode _ k _ := by cases k <;> rfl
  encode_ne_null _ := Json.noConfusion

instance : Lawful CancelWindow 0 where
  decode_encode _ w _ := by cases w <;> rfl
  encode_ne_null _ := Json.noConfusion

/-! ## Records -/

instance : Lawful Payment 2 where
  decode_encode c p room := decode_fields (by omega) rfl (by decide) fun c' hroom => by
    simp (disch := omega)
  encode_ne_null _ := Json.noConfusion

instance : Lawful Execution 2 where
  decode_encode c x room := by
    cases x with
    | none => exact decode_tagged [] (by omega) rfl (by decide) (fun _ _ => rfl) fun _ _ => rfl
    | standard selector params =>
      refine decode_tagged ["selector", "params"] (by omega) rfl (by decide) (fun room h => ?_)
        fun c' hroom => read_fields rfl (by decide) ?_
      · exact membersKept_cons (isKept_bytes h _) (membersKept_cons (isKept_bytes h _) rfl)
      · simp (disch := omega)
    | raw payload =>
      refine decode_tagged ["payload"] (by omega) rfl (by decide) (fun room h => ?_)
        fun c' hroom => read_fields rfl (by decide) ?_
      · exact membersKept_cons (isKept_bytes h _) rfl
      · simp (disch := omega)
  encode_ne_null x := by cases x <;> exact Json.noConfusion

instance : Lawful Request 3 where
  decode_encode c r room := decode_fields (by omega) rfl (by decide) fun c' hroom => by
    simp (disch := omega)
  encode_ne_null _ := Json.noConfusion

instance : Lawful Record 4 where
  decode_encode c r room := decode_fields (by omega) rfl (by decide) fun c' hroom => by
    simp (disch := omega)
  encode_ne_null _ := Json.noConfusion

/-! ## Payloads -/

namespace MetaTx

instance : Lawful Terms 2 where
  decode_encode c t room := decode_fields (by omega) rfl (by decide) fun c' hroom => by
    simp (disch := omega)
  encode_ne_null _ := Json.noConfusion

instance : Lawful Snapshot 4 where
  decode_encode c s room := decode_fields (by omega) rfl (by decide) fun c' hroom => by
    simp (disch := omega)
  encode_ne_null _ := Json.noConfusion

instance : Lawful Draft 5 where
  decode_encode c d room := decode_fields (by omega) rfl (by decide) fun c' hroom => by
    simp (disch := omega)
  encode_ne_null _ := Json.noConfusion

instance : Lawful Signed 5 where
  decode_encode c tx room := decode_fields (by omega) rfl (by decide) fun c' hroom => by
    simp (disch := omega)
  encode_ne_null _ := Json.noConfusion

end MetaTx

/-! ## Events -/

instance : Lawful Uuid 0 where
  decode_encode _ u _ := Uuid.ofText?_text u
  encode_ne_null _ := Json.noConfusion

/-- The step for the variants that tell of an actor and an action. -/
theorem EventKind.decode_actor {c : WireContext} {tag : String}
    {make : Identity → Action → EventKind} (room : 2 ≤ c.room)
    (variant : ∀ c j, decodeVariant c tag j =
      (decodeActor c j).bind fun (actor, action) => some (make actor action))
    (actor : Identity) (action : Action) :
    decode c (.fields [("event", .text tag), ("by", encode actor), ("action", encode action)]) =
      some (make actor action) := by
  refine decode_tagged ["by", "action"] (by omega) rfl (by decide) (fun room h => ?_)
    fun c' hroom => ?_
  · exact membersKept_cons (isKept_bytes h _) (membersKept_cons rfl rfl)
  · have actors : decodeActor c' (.fields [("by", encode actor), ("action", encode action)]) =
        some (actor, action) :=
      read_fields rfl (by decide) (by simp (disch := omega))
    rw [variant, actors]
    rfl

instance : Lawful EventKind 2 where
  decode_encode c k room := by
    cases k with
    | requested requester releaseTime =>
      refine decode_tagged ["requester", "release_time"] (by omega) rfl (by decide)
        (fun room h => ?_) fun c' hroom => read_fields rfl (by decide) ?_
      · exact membersKept_cons (isKept_bytes h _)
          (membersKept_cons (isKept_nat releaseTime.toNat_lt) rfl)
      · simp (disch := omega)
    | approved actor action =>
      exact EventKind.decode_actor room (fun _ _ => rfl) actor action
    | cancelled actor action =>
      exact EventKind.decode_actor room (fun _ _ => rfl) actor action
    | executed status result =>
      refine decode_tagged ["status", "result"] (by omega) rfl (by decide) (fun room h => ?_)
        fun c' hroom => read_fields rfl (by decide) ?_
      · exact membersKept_cons rfl (membersKept_cons (isKept_bytes h _) rfl)
      · simp (disch := omega)
  encode_ne_null k := by cases k <;> exact Json.noConfusion

instance : Lawful Notice 3 where
  decode_encode c n room := decode_fields (by omega) rfl (by decide) fun c' hroom => by
    simp (disch := omega)
  encode_ne_null _ := Json.noConfusion

/-! ## What is registered -/

instance : Lawful Role 3 where
  decode_encode c r room := decode_fields (by omega) rfl (by decide) fun c' hroom => by
    simp (disch := omega)
  encode_ne_null _ := Json.noConfusion

instance : Lawful FunctionParam 1 where
  decode_encode c p room := decode_fields (by omega) rfl (by decide) fun c' hroom => by
    simp (disch := omega)
  encode_ne_null _ := Json.noConfusion

instance : Lawful FunctionSchema 3 where
  decode_encode c f room := decode_fields (by omega) rfl (by decide) fun c' hroom => by
    simp (disch := omega)
  encode_ne_null _ := Json.noConfusion

instance : Lawful WorkflowPath 2 where
  decode_encode c p room := decode_fields (by omega) rfl (by decide) fun c' hroom => by
    simp (disch := omega)
  encode_ne_null _ := Json.noConfusion

instance : Lawful OperationEntry 4 where
  decode_encode c e room := decode_fields (by omega) rfl (by decide) fun c' hroom => by
    simp (disch := omega)
  encode_ne_null _ := Json.noConfusion

instance : Lawful StatusCounts 1 where
  decode_encode c n room := decode_fields (by omega) rfl (by decide) fun c' hroom => by
    simp (disch := omega)
  encode_ne_null _ := Json.noConfusion

/-! ## Configurations -/

instance : Lawful OperationOverride 1 where
  decode_encode c o room := decode_fields (by omega) rfl (by decide) fun c' hroom => by
    simp (disch := omega)
  encode_ne_null _ := Json.noConfusion

instance : Lawful TimeLockConfig 3 where
  decode_encode c t room := decode_fields (by omega) rfl (by decide) fun c' hroom => by
    simp (disch := omega)
  encode_ne_null _ := Json.noConfusion

instance : Lawful LoggingConfig 1 where
  decode_encode c l room := decode_fields (by omega) rfl (by decide) fun c' hroom => by
    simp (disch := omega)
  encode_ne_null _ := Json.noConfusion

instance : Lawful EngineConfig 4 where
  decode_encode c e room := decode_fields (by omega) rfl (by decide) fun c' hroom => by
    simp (disch := omega)
  encode_ne_null _ := Json.noConfusion

/-! ## Texts -/

namespace Wire

/-- Every value of a type is read back from its text. -/
def ReadBack (α : Type) [Wire α] : Prop := ∀ a : α, parse? α (render a) = some a

theorem readBack {α : Type} [Wire α] {levels : Nat} [Lawful α levels]
    (h : levels ≤ WireContext.outermost.room) : ReadBack α := by
  intro a
  rw [parse?, render, Json.parse?_render, Option.bind_eq_bind, Option.bind_some]
  exact decode_encode .outermost a h

open MetaTx in
/-- Whatever has a wire form is read back from its text: payloads and their parts, records and their
parts, events, what is registered, configurations, and the identifiers and names in them. -/
theorem parse?_render_of_every_type :
    (ReadBack Signed ∧ ReadBack Draft ∧ ReadBack Terms ∧ ReadBack Snapshot) ∧
    (ReadBack Record ∧ ReadBack Request ∧ ReadBack Execution ∧ ReadBack Payment) ∧
    (ReadBack Notice ∧ ReadBack EventKind ∧ ReadBack Uuid) ∧
    (ReadBack Role ∧ ReadBack FunctionSchema ∧ ReadBack FunctionParam) ∧
    (ReadBack OperationEntry ∧ ReadBack WorkflowPath ∧ ReadBack StatusCounts) ∧
    (ReadBack EngineConfig ∧ ReadBack TimeLockConfig ∧ ReadBack OperationOverride ∧
      ReadBack LoggingConfig) ∧
    (ReadBack Identity ∧ ReadBack OperationType ∧ ReadBack RoleId ∧ ReadBack Selector ∧
      ReadBack TxId ∧ ReadBack Digest) ∧
    (ReadBack Action ∧ ReadBack Status ∧ ReadBack ExecutionKind ∧ ReadBack CancelWindow) := by
  and_intros
  all_goals exact readBack (by decide)

end Wire

end Countersign
