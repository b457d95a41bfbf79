import Countersign.TimeLock
import Countersign.Wire.Basic

/-!
# Wire forms of identifiers and names

An identifier stands as its bytes or its number; an action, a status, the kind of an execution and a
cancel window stand as their names.
-/

namespace Countersign

open Wire (encode decode)

/-! ## Identifiers -/

instance : Wire Identity where
  encode i := encode i.bytes
  decode c j := (decode c j).map Identity.mk

instance : Wire OperationType where
  encode o := encode o.bytes
  decode c j := (decode c j).map OperationType.mk

instance : Wire RoleId where
  encode r := encode r.bytes
  decode c j := (decode c j).map RoleId.mk

instance : Wire Selector where
  encode s := encode s.bytes
  decode c j := (decode c j).map Selector.mk

instance : Wire TxId where
  encode t := encode t.number
  decode c j := (decode c j).map TxId.mk

instance : Wire Digest where
  encode g := encode g.bytes
  decode c j := (decode c j).map Digest.mk

/-! ## Names -/

instance : Wire Action where
  encode a := .text a.name
  decode := Wire.ofName? Action.all Action.name

instance : Wire Status where
  encode s := .text s.name
  decode := Wire.ofName? Status.all Status.name

instance : Wire ExecutionKind where
  encode k := .text k.name
  decode := Wire.ofName? ExecutionKind.all ExecutionKind.name

instance : Wire CancelWindow where
  encode w := .text w.name
  decode := Wire.ofName? CancelWindow.all CancelWindow.name

end Countersign
