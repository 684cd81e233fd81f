import Mathlib.Data.BitVec

/-! # What the layers of the stack share

Error codes of `netapi.h`, addresses and devices, and the configuration of
`inet_config.h`.
-/

namespace PosFirmware.IpStack

abbrev Byte := BitVec 8

/-- An address in the byte order of the host. -/
abbrev Ip := BitVec 32

/-- An ethernet address. -/
abbrev Mac := BitVec 48

/-- A device, by its index. -/
abbrev InetDev := Nat

def NET_OK : Int := 0
def NET_ERR_MEM : Int := -1
def NET_ERR_BUF : Int := -2
def NET_ERR_ABRT : Int := -3
def NET_ERR_RST : Int := -4
def NET_ERR_CLSD : Int := -5
def NET_ERR_CONN : Int := -6
def NET_ERR_VAL : Int := -7
def NET_ERR_RTE : Int := -9
def NET_ERR_TIMEOUT : Int := -13
def NET_ERR_AGAIN : Int := -14
def NET_ERR_EXIST : Int := -15

def MAX_TCP_PCB_COUNT : Nat := 10
def MAX_TCP_LISTEN_PCB_COUNT : Nat := 2
def MAX_UDP_COUNT : Nat := 2
def MAX_SOCK_COUNT : Nat := MAX_TCP_PCB_COUNT + MAX_TCP_LISTEN_PCB_COUNT + MAX_UDP_COUNT

end PosFirmware.IpStack
