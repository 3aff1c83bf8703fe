import HftFixEngine.Protocol.Decimal

set_option autoImplicit false

namespace HftFixEngine.Networking

open Protocol

namespace UdpFixProducer

-- `format_to_n` keeps the first bytes that fit and leaves room for the terminator.
abbrev messageRoom : Nat := 511

def message (i : Nat) : Bytes :=
  (ascii "8=FIX.4.2\x01" ++
    ascii "9=95\x01" ++
    ascii "35=D\x01" ++
    ascii "49=PRODUCER\x01" ++
    ascii "56=ENGINE\x01" ++
    ascii "34=" ++ toChars i ++ ascii "\x01" ++
    ascii "52=20260717-18:00:00.000\x01" ++
    ascii "11=ORD_" ++ toChars i ++ ascii "\x01" ++
    ascii "55=PETR4\x01" ++
    ascii "54=1\x01" ++
    ascii "38=1000\x01" ++
    ascii "40=2\x01" ++
    ascii "44=35.85\x01" ++
    ascii "10=128\x01").take messageRoom

end UdpFixProducer

end HftFixEngine.Networking
