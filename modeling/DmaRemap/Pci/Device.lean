import DmaRemap.Abort
import DmaRemap.Text.Described

namespace DmaRemap

open Text (paddedDigits digits)

/-- A routing id: the bus in the high byte, device and function in the low byte. -/
structure RoutingId where
  val : Fin 65536
deriving DecidableEq, Repr

/-- A bus, device and function number. -/
structure Bdf where
  bus : Fin 256
  device : Fin 32
  function : Fin 8
deriving DecidableEq, Repr

namespace RoutingId

def ofNat (n : Nat) : RoutingId := ⟨⟨n % 65536, Nat.mod_lt n (by decide)⟩⟩

theorem ofNat_val (id : RoutingId) : ofNat id.val.val = id :=
  congrArg mk (Fin.ext (Nat.mod_eq_of_lt id.val.isLt))

def bus (id : RoutingId) : Fin 256 :=
  ⟨id.val.val / 256, by omega⟩

/-- The device and function number, the index of the device within its bus. -/
def devfn (id : RoutingId) : Fin 256 :=
  ⟨id.val.val % 256, by omega⟩

instance : Ord RoutingId := ⟨fun a b => compare a.val.val b.val.val⟩

end RoutingId

namespace Bdf

/-- The device with the given numbers. A number that is too large aborts, the device number first.
-/
def ofNumbers (bus device function : Nat) : Except Abort Bdf :=
  if smallDevice : device < 32 then
    if smallFunction : function < 8 then
      .ok ⟨Fin.ofNat 256 bus, ⟨device, smallDevice⟩, ⟨function, smallFunction⟩⟩
    else .error .functionOutOfRange
  else .error .deviceOutOfRange

def ofRoutingId (id : RoutingId) : Bdf :=
  ⟨id.bus, ⟨id.devfn.val / 8, by omega⟩, ⟨id.devfn.val % 8, by omega⟩⟩

def routingId (bdf : Bdf) : RoutingId :=
  ⟨bdf.bus.val * 256 + bdf.device.val * 8 + bdf.function.val, by omega⟩

/-- The index of the device within its bus. -/
def devfn (bdf : Bdf) : Fin 256 :=
  bdf.routingId.devfn

/-- Devices compare by bus, then by device, then by function. -/
instance : Ord Bdf := ⟨fun a b =>
  ((compare a.bus.val b.bus.val).then (compare a.device.val b.device.val)).then
    (compare a.function.val b.function.val)⟩

instance : ToString Bdf := ⟨fun bdf =>
  paddedDigits 16 2 bdf.bus.val ++ ":" ++ paddedDigits 16 2 bdf.device.val ++ "." ++
    digits 16 bdf.function.val⟩

def describe (bdf : Bdf) : String :=
  Text.fields "Bdf"
    [("bus", toString bdf.bus.val), ("device", toString bdf.device.val),
      ("function", toString bdf.function.val)]

theorem ofRoutingId_routingId (bdf : Bdf) : ofRoutingId bdf.routingId = bdf := by
  obtain ⟨bus, device, function⟩ := bdf
  simp only [ofRoutingId, routingId, RoutingId.bus, RoutingId.devfn, mk.injEq, Fin.ext_iff]
  omega

theorem routingId_ofRoutingId (id : RoutingId) : (ofRoutingId id).routingId = id := by
  obtain ⟨value⟩ := id
  simp only [ofRoutingId, routingId, RoutingId.bus, RoutingId.devfn, RoutingId.mk.injEq,
    Fin.ext_iff]
  omega

end Bdf

instance : ToString RoutingId := ⟨fun id => toString (Bdf.ofRoutingId id)⟩

end DmaRemap
