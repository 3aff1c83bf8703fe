import HftFixEngine.Shared.Word

set_option autoImplicit false

namespace HftFixEngine

-- Raw memory: payloads, string views and character arrays.
abbrev Bytes := List UInt8

namespace Protocol

-- String views are modelled by the bytes they show, so the inline buffer that backs numeric identifiers
-- has no field of its own; what such a view shows once its order is gone is up to `received`.
structure ParsedOrder where
  msgType : Bytes := []
  msgTypeChar : UInt8 := 63
  clOrdId : Bytes := []
  symbol : Bytes := []
  side : Int := 0
  quantity : Int := 0
  price : Int := 0
  seqNum : Nat := 0
  latencyNs : Nat := 0
  deriving DecidableEq, Repr, Inhabited

end Protocol

end HftFixEngine
