import RecordSeal.Failure

set_option autoImplicit false

/-! # Markers of model types

A model type may be exempt, signed only, or protect attributes it does not declare, and it may
bind signatures to another table name. -/

namespace RecordSeal

/-- A marker to be placed on a model type. -/
inductive Marker where
  | doNotTouch
  | doNotEncrypt
  | handleUnknown
  | tableOverride (table : Value)

/-- The markers of a model type. -/
structure Markers where
  doNotTouch : Bool := false
  doNotEncrypt : Bool := false
  handleUnknown : Bool := false
  tableOverride : Option Value := none

namespace Markers

/-- Adds a marker; an override must name a table. -/
def add (m : Markers) : Marker → Except Failure Markers
  | .doNotTouch => .ok { m with doNotTouch := true }
  | .doNotEncrypt => .ok { m with doNotEncrypt := true }
  | .handleUnknown => .ok { m with handleUnknown := true }
  | .tableOverride table =>
    if table.isGiven then .ok { m with tableOverride := some table }
    else .error (.refused .emptyOverride)

/-- The markers of either, the override of the second one winning. -/
def join (m n : Markers) : Markers :=
  { doNotTouch := m.doNotTouch || n.doNotTouch
    doNotEncrypt := m.doNotEncrypt || n.doNotEncrypt
    handleUnknown := m.handleUnknown || n.handleUnknown
    tableOverride := n.tableOverride.or m.tableOverride }

end Markers

end RecordSeal
