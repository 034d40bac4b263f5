import SchemaHerald.Failure
import SchemaHerald.Registration

/-!
# The registrar

The registrar knows what is live where. A publish first *reserves* its key, which nobody else can
then reserve; it ends by turning the reservation into a registration or by abandoning it. Handles
are made on the first use of a registry's name.

A registrar that is closed takes no more reservations. It is *released* once nothing is reserved any
more: then no key is taken and all of its handles are shut.
-/
namespace SchemaHerald

/-- What a key is taken by. -/
inductive Slot
  /-- A publish that is under way. -/
  | reserved
  /-- A registration. -/
  | live (registration : Registration)
deriving Inhabited

/-- The registration in a slot, if there is one. -/
def Slot.registration? : Slot → Option Registration
  | .reserved => none
  | .live registration => some registration

/-- **The registrar** of one publisher. -/
structure Registrar where
  /-- The id stamped into every schema that is published. -/
  publisher : String
  /-- The keys that are taken. -/
  slots : Table Key Slot := {}
  /-- The handles, by the name that they were asked for. -/
  handles : Table String Handle := {}
  /-- How many reservations are out. -/
  inFlight : Nat := 0
  /-- Whether no more reservations are taken. -/
  closed : Bool := false
  /-- How many handles and registrations were made. -/
  made : Nat := 0
  /-- The numbers of the handles that are shut. -/
  shut : List Nat := []
deriving Inhabited

namespace Registrar

variable (r : Registrar)

/-! ## Look-ups -/

/-- The live registration under two names, whatever blanks are around them. -/
def find? (registry schema : String) : Option Registration :=
  (r.slots.get? (Key.canonical registry schema)).bind Slot.registration?

/-- The handle of a registry; without a name, of the default one. -/
def handle? (registry : Option String) : Option Handle :=
  r.handles.get? ((registry.map Text.trim).getD Settings.defaultRegistryName)

/-- Whether a handle is shut. -/
def isShut (h : Handle) : Bool := r.shut.contains h.number

/-- The names of the registries with a handle, in order. -/
def registryNames : List String := r.handles.keys

/-- The live registrations, ordered by key. -/
def registrations : List Registration :=
  (r.slots.values.filterMap Slot.registration?).mergeSort Registration.le

/-! ## Reservations and registrations -/

/-- **Reserves** a key for a publish. -/
def reserve (registry schema : String) : Except Failure (Key × Registrar) :=
  if r.closed then .error .registrarClosed
  else
    let key := Key.canonical registry schema
    if r.slots.contains key then .error (.duplicate key.registry key.schema)
    else .ok (key, { r with slots := r.slots.insert key .reserved, inFlight := r.inFlight + 1 })

/-- The slots without a reservation of a key; what is live stays. -/
def unreserve (key : Key) : Table Key Slot :=
  match r.slots.get? key with
  | some .reserved => r.slots.erase key
  | _ => r.slots

/-- **Abandons** a reservation. -/
def abandon (key : Key) : Registrar :=
  { r with slots := r.unreserve key, inFlight := r.inFlight - 1 }

/-- **Registers**: turns the reservation of a key into a registration. -/
def register (key : Key) (record : Record) (handle : Handle) (listened : Bool) :
    Registration × Registrar :=
  let registration : Registration :=
    { serial := r.made, schema := key.schema, publisher := r.publisher, record, handle, listened }
  (registration, { r with
    slots := r.slots.insert key (.live registration)
    inFlight := r.inFlight - 1
    made := r.made + 1 })

/-- Whether what is live under the key of a registration is like it. -/
def holds (registration : Registration) : Bool :=
  ((r.slots.get? registration.key).bind Slot.registration?).any (·.alike registration)

/-- **Unregisters**: frees the key of a registration, if what is live there is like it. -/
def unregister (registration : Registration) : Registrar :=
  if r.holds registration then { r with slots := r.slots.erase registration.key } else r

/-! ## Handles -/

/-- A new handle, of which the registrar knows nothing else. -/
def newHandle (options : RegistryOptions) : Handle × Registrar :=
  (⟨r.made, options⟩, { r with made := r.made + 1 })

/-- **The handle of a registry**: the one that there is under the name, as it stands, or a new
one. -/
def handleFor (options : RegistryOptions) : Handle × Registrar :=
  match r.handles.get? options.name with
  | some handle => (handle, r)
  | none =>
    let (handle, r) := r.newHandle options
    (handle, { r with handles := r.handles.insert options.name handle })

/-! ## Closing -/

/-- The registrar that takes no more reservations. -/
def close : Registrar := { r with closed := true }

/-- **Releases** everything: no key is taken any more, and the handles are shut. -/
def release : Registrar :=
  { r with slots := {}, handles := {}, shut := r.handles.values.map (·.number) ++ r.shut }

end Registrar
end SchemaHerald
