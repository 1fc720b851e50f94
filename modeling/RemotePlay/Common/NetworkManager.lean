import RemotePlay.Lib.Bytes

/-!
# Addresses and datagrams

What `NetworkManager` sends and receives. An address string is its bytes.
-/

namespace RemotePlay

structure Endpoint where
  ip : List UInt8
  port : UInt16
  deriving DecidableEq, Repr

structure Datagram where
  data : List UInt8
  target : Endpoint
  deriving DecidableEq, Repr

end RemotePlay
