import PosFirmware.Foundation.Loop
import PosFirmware.Foundation.Memory
import PosFirmware.IpStack.Inet

/-! # The DHCP client

`dhcpc.c` scans the options of an OFFER and of an ACK with one loop each, whose cases
are made of the same few macros. Both take the options to end as many bytes after their
start as the whole packet has.
-/

namespace PosFirmware.IpStack

open PosFirmware.Foundation

/-! ## Messages -/

def DHCP_DISCOVER : Byte := 1
def DHCP_OFFER : Byte := 2
def DHCP_REQUEST : Byte := 3
def DHCP_ACK : Byte := 5
def DHCP_NAK : Byte := 6

def DHCP_OPTION_PAD : Byte := 0
def DHCP_OPTION_SUBNET_MASK : Byte := 1
def DHCP_OPTION_ROUTER : Byte := 3
def DHCP_OPTION_DNS_SERVER : Byte := 6
def DHCP_OPTION_LEASE_TIME : Byte := 51
def DHCP_OPTION_MESSAGE_TYPE : Byte := 53
def DHCP_OPTION_SERVER_ID : Byte := 54
def DHCP_OPTION_END : Byte := 255

/-- The offset of `options` in `struct dhcp_msg`. -/
def OPTIONS : Nat := 240

/-- Four bytes of memory, by `ntohl`. -/
def ntohlAt (mem : Nat → Byte) (p : Nat) : BitVec 32 :=
  mem p ++ mem (p + 1) ++ mem (p + 2) ++ mem (p + 3)

/-! ## The scan of the options -/

/-- A scan: the cursor `options`, as an offset in the packet, the offsets read from, and
what was found. -/
structure DhcpScan (ρ : Type) where
  options : Nat
  reads : List Nat
  found : ρ

variable {ρ : Type}

/-- `options[k]` was read. -/
def DhcpScan.look (s : DhcpScan ρ) (k : Nat) : DhcpScan ρ :=
  { s with reads := (s.options + k) :: s.reads }

/-- Four bytes from `options + k` on were copied. -/
def DhcpScan.copy (s : DhcpScan ρ) (k : Nat) : DhcpScan ρ :=
  (((s.look k).look (k + 1)).look (k + 2)).look (k + 3)

/-- `OPTIONS_MOVE`; `error` is `goto err`. -/
def optionsMove (endp step : Nat) (s : DhcpScan ρ) : Except (DhcpScan ρ) (DhcpScan ρ) :=
  if s.options + step ≥ endp then .error s else .ok { s with options := s.options + step }

/-- `OPTIONS_BYTE_CHECK`. -/
def optionsByteCheck (mem : Nat → Byte) (endp : Nat) (value : Byte) (s : DhcpScan ρ) :
    Except (DhcpScan ρ) (DhcpScan ρ) := do
  let s ← optionsMove endp 1 s
  let s := s.look 0
  if mem s.options ≠ 1 then .error s
  else
    let s ← optionsMove endp 1 s
    let s := s.look 0
    if mem s.options ≠ value then .error s else optionsMove endp 1 s

/-- `OPTIONS_GET_LONG`, with the assignment of the value. -/
def optionsGetLong (mem : Nat → Byte) (endp : Nat) (assign : BitVec 32 → ρ → ρ)
    (s : DhcpScan ρ) : Except (DhcpScan ρ) (DhcpScan ρ) := do
  let s ← optionsMove endp 1 s
  let s := s.look 0
  if mem s.options ≠ 4 then .error s
  else
    let s ← optionsMove endp 1 s
    let s := s.copy 0
    optionsMove endp 4 { s with found := assign (ntohlAt mem s.options) s.found }

/-- `OPTIONS_GET_LONGS`. -/
def optionsGetLongs (mem : Nat → Byte) (endp : Nat) (assign : BitVec 32 → ρ → ρ)
    (s : DhcpScan ρ) : Except (DhcpScan ρ) (DhcpScan ρ) := do
  let s ← optionsMove endp 1 s
  let s := s.look 0
  let dn := (mem s.options).toNat
  if dn = 0 ∨ dn % 4 ≠ 0 then .error s
  else
    let s ← optionsMove endp 1 s
    let s := s.copy 0
    optionsMove endp dn { s with found := assign (ntohlAt mem s.options) s.found }

/-- The case of `DHCP_OPTION_DNS_SERVER`. -/
def optionsGetDns (mem : Nat → Byte) (endp : Nat) (assign : BitVec 32 → ρ → ρ)
    (s : DhcpScan ρ) : Except (DhcpScan ρ) (DhcpScan ρ) := do
  let s ← optionsMove endp 1 s
  let s := s.look 0
  let len := (mem s.options).toNat
  if len % 4 ≠ 0 then .error s
  else
    let s ← optionsMove endp 1 s
    let s := s.copy 0
    optionsMove endp len { s with found := assign (ntohlAt mem s.options) s.found }

/-- The case of `DHCP_OPTION_SERVER_ID` in an OFFER. -/
def optionsGetServerId (mem : Nat → Byte) (assign : BitVec 32 → ρ → ρ) (s : DhcpScan ρ) :
    Except (DhcpScan ρ) (DhcpScan ρ) :=
  let s := s.copy 2
  .ok { s with found := assign (ntohlAt mem (s.options + 2)) s.found,
               options := s.options + 6 }

/-- The case of every other option. -/
def optionsSkip (mem : Nat → Byte) (s : DhcpScan ρ) : Except (DhcpScan ρ) (DhcpScan ρ) :=
  let s := s.look 1
  .ok { s with options := s.options + 1 + ((mem (s.options + 1)).toNat + 1) }

/-- What a scan does with an option. -/
inductive OptionRule (ρ : Type) where
  | byteCheck (value : Byte) (seen : ρ → ρ)
  | long (assign : BitVec 32 → ρ → ρ)
  | longs (assign : BitVec 32 → ρ → ρ)
  | dns (assign : BitVec 32 → ρ → ρ)
  | serverId (assign : BitVec 32 → ρ → ρ)
  | other

/-- The case of an option. -/
def optionsCase (mem : Nat → Byte) (endp : Nat) (s : DhcpScan ρ) :
    OptionRule ρ → Except (DhcpScan ρ) (DhcpScan ρ)
  | .byteCheck value seen =>
      (optionsByteCheck mem endp value s).map fun s => { s with found := seen s.found }
  | .long assign => optionsGetLong mem endp assign s
  | .longs assign => optionsGetLongs mem endp assign s
  | .dns assign => optionsGetDns mem endp assign s
  | .serverId assign => optionsGetServerId mem assign s
  | .other => optionsSkip mem s

/-- One round of `while(options < end)`; code 1 is `goto err`. -/
def dhcpRound (rule : Byte → OptionRule ρ) (mem : Nat → Byte) (endp : Nat) (s : DhcpScan ρ) :
    Outcome (DhcpScan ρ) :=
  if s.options < endp then
    let s := s.look 0
    if mem s.options = DHCP_OPTION_END then .returned 0 s
    else
      match optionsCase mem endp s (rule (mem s.options)) with
      | .ok s => .running s
      | .error s => .returned 1 s
  else .returned 0 s

/-- The loop over the options of a packet of `len` bytes, after a number of rounds. -/
def dhcpScan (rule : Byte → OptionRule ρ) (mem : Nat → Byte) (len : Nat) (start : ρ) :
    Nat → Outcome (DhcpScan ρ) :=
  Outcome.run (dhcpRound rule mem (OPTIONS + len)) (.running ⟨OPTIONS, [], start⟩)

/-! ## `dhcp_offer_process` and `dhcp_ack_process` -/

/-- `boffer` and `msg->siaddr`. -/
structure OfferFound where
  boffer : Bool
  siaddr : BitVec 32
  deriving DecidableEq

/-- The cases of `dhcp_offer_process`. -/
def offerRule (option : Byte) : OptionRule OfferFound :=
  if option = DHCP_OPTION_MESSAGE_TYPE then
    .byteCheck DHCP_OFFER fun found => { found with boffer := true }
  else if option = DHCP_OPTION_SERVER_ID then
    .serverId fun siaddr found => { found with siaddr }
  else .other

/-- What `dhcp_offer_process` starts with. -/
def offerStart (mem : Nat → Byte) : OfferFound := ⟨false, ntohlAt mem 20⟩

/-- `back`, `mask`, `lease_time`, `router` and `dns`. -/
structure AckFound where
  back : Bool
  mask : BitVec 32
  leaseTime : BitVec 32
  router : BitVec 32
  dns : BitVec 32
  deriving DecidableEq

/-- The cases of `dhcp_ack_process`. -/
def ackRule (option : Byte) : OptionRule AckFound :=
  if option = DHCP_OPTION_MESSAGE_TYPE then
    .byteCheck DHCP_ACK fun found => { found with back := true }
  else if option = DHCP_OPTION_SUBNET_MASK then .long fun mask found => { found with mask }
  else if option = DHCP_OPTION_LEASE_TIME then
    .long fun leaseTime found => { found with leaseTime }
  else if option = DHCP_OPTION_ROUTER then .longs fun router found => { found with router }
  else if option = DHCP_OPTION_DNS_SERVER then .dns fun dns found => { found with dns }
  else .other

/-- What `dhcp_ack_process` starts with. -/
def ackStart : AckFound := ⟨false, 0, 0, 0, 0⟩

/-- The fields of `struct dhcp_client_s` that a reply sets. -/
structure DhcpClient where
  state : Byte
  timeOut : BitVec 32
  retry : Nat
  id : BitVec 32
  leaseTime : BitVec 32
  offerIp : BitVec 32
  offerMask : BitVec 32
  offerRouter : BitVec 32
  dnsIp : BitVec 32
  serverIp : BitVec 32
  leaseTimeSwitch : List (BitVec 32)

/-- `dhcp_offer_process` after its loop; `requested` is the client after `dhcp_request`. -/
def DhcpClient.offered (client : DhcpClient) (requested : DhcpClient → DhcpClient)
    (mem : Nat → Byte) (found : OfferFound) : DhcpClient :=
  if found.boffer then
    requested { client with offerIp := ntohlAt mem 16, serverIp := found.siaddr }
  else client

/-- `dhcp_ack_process` after its loop. -/
def DhcpClient.acked (client : DhcpClient) (mem : Nat → Byte) (found : AckFound) : DhcpClient :=
  if found.back = false ∨ found.mask = 0 ∨ found.leaseTime = 0 then client
  else
    let leaseTime := (if found.leaseTime > 24 * 3600 then 24 * 3600 else found.leaseTime) * 1000
    let timeOut := leaseTime / 2
    { client with
      leaseTime, offerIp := ntohlAt mem 16, offerMask := found.mask, offerRouter := found.router,
      dnsIp := found.dns, state := DHCP_ACK, timeOut, retry := 0,
      leaseTimeSwitch := [(leaseTime - timeOut) / 2, leaseTime / 8, leaseTime / 16].map
        fun time => if time < 60000 then 60000 else time }

/-- The client after the loop of a scan, which takes at most a round for every byte. -/
def dhcpProcess (rule : Byte → OptionRule ρ) (mem : Nat → Byte) (len : Nat) (start : ρ)
    (client : DhcpClient) (complete : ρ → DhcpClient) : DhcpClient :=
  match dhcpScan rule mem len start (len + 1) with
  | .returned 0 s => complete s.found
  | _ => client

/-- `dhcp_offer_process`. -/
def dhcpOfferProcess (client : DhcpClient) (requested : DhcpClient → DhcpClient)
    (mem : Nat → Byte) (len : Nat) : DhcpClient :=
  dhcpProcess offerRule mem len (offerStart mem) client (client.offered requested mem)

/-- `dhcp_ack_process`. -/
def dhcpAckProcess (client : DhcpClient) (mem : Nat → Byte) (len : Nat) : DhcpClient :=
  dhcpProcess ackRule mem len ackStart client (client.acked mem)

/-- `dhcp_input`, on a packet sent to the client's device. -/
def dhcpInput (client : DhcpClient) (requested : DhcpClient → DhcpClient) (mac : List Byte)
    (mem : Nat → Byte) (len : Nat) : DhcpClient :=
  if ntohlAt mem 4 ≠ client.id ∨ mem 0 ≠ 2 ∨ slice mem 28 6 ≠ mac then client
  else if client.state = DHCP_DISCOVER then dhcpOfferProcess client requested mem len
  else if client.state = DHCP_REQUEST ∨ client.state = DHCP_ACK then
    dhcpAckProcess client mem len
  else client

end PosFirmware.IpStack

/-! ## The grammar of DHCP options

An option field is a row of items, each a PAD of one byte or an option with its length
and its value, closed by END. `ReadsGrammar` says that a scan follows it, and `FieldPlain`
is the condition on the field under which the scans of the client do.
-/

namespace PosFirmware.IpStack

open PosFirmware.Foundation

variable {ρ : Type}

/-! ## The grammar -/

/-- An item of the option field. -/
inductive DhcpItem where
  | pad
  | option (tag : Byte) (value : List Byte)

/-- The bytes of an item. -/
def DhcpItem.encode : DhcpItem → List Byte
  | .pad => [DHCP_OPTION_PAD]
  | .option tag value => tag :: BitVec.ofNat 8 value.length :: value

def encodeItems (items : List DhcpItem) : List Byte := items.flatMap DhcpItem.encode

/-- The lengths of the options that a scan looks for. -/
def LengthOk : OptionRule ρ → Nat → Prop
  | .byteCheck _ _, n => n = 1
  | .long _, n | .serverId _, n => n = 4
  | .longs _, n | .dns _, n => n ≠ 0 ∧ n % 4 = 0
  | .other, _ => True

/-- An item of the grammar. -/
def DhcpItem.Valid (rule : Byte → OptionRule ρ) : DhcpItem → Prop
  | .pad => True
  | .option tag value =>
      tag ≠ DHCP_OPTION_PAD ∧ tag ≠ DHCP_OPTION_END ∧ value.length < 256 ∧
        LengthOk (rule tag) value.length

/-- The option field of a packet. -/
def optionField (mem : Nat → Byte) (len : Nat) : List Byte := slice mem OPTIONS (len - OPTIONS)

/-- The items of an option field, up to END. -/
def OptionSequence (rule : Byte → OptionRule ρ) (field : List Byte) (items : List DhcpItem) :
    Prop :=
  (∀ item ∈ items, item.Valid rule) ∧
    ∃ rest, field = encodeItems items ++ DHCP_OPTION_END :: rest

/-- The first four bytes of a value, by `ntohl`. -/
def ntohlOf (value : List Byte) : BitVec 32 := ntohlAt (fun i => value.getD i 0) 0

/-- What an item adds to what a scan looks for. -/
def takeItem (rule : Byte → OptionRule ρ) (found : ρ) : DhcpItem → ρ
  | .pad => found
  | .option tag value =>
      match rule tag with
      | .byteCheck wanted seen => if value = [wanted] then seen found else found
      | .long assign | .longs assign | .dns assign | .serverId assign =>
          assign (ntohlOf value) found
      | .other => found

/-- The items say that the packet is of the kind that the scan waits for. -/
def Wanted (rule : Byte → OptionRule ρ) (items : List DhcpItem) : Prop :=
  ∃ tag wanted seen, rule tag = .byteCheck wanted seen ∧ DhcpItem.option tag [wanted] ∈ items

/-- A scan reads the packet by the grammar: it returns, reads only bytes of the packet,
takes a PAD for one byte, ends at an END, has at any time found what the items before the
cursor say, and refuses no packet of the kind that it waits for. -/
structure ReadsGrammar (rule : Byte → OptionRule ρ) (mem : Nat → Byte) (len : Nat) (start : ρ) :
    Prop where
  returns : ∃ n code s, dhcpScan rule mem len start n = .returned code s
  inside : ∀ n, ∀ k ∈ (dhcpScan rule mem len start n).state.reads, k < len
  pad : ∀ n s, dhcpScan rule mem len start n = .running s → s.options < len →
    mem s.options = DHCP_OPTION_PAD →
    (dhcpScan rule mem len start (n + 1)).state.options = s.options + 1
  terminator : ∀ n s, dhcpScan rule mem len start n = .returned 0 s →
    s.options < len ∧ mem s.options = DHCP_OPTION_END
  found : ∀ n s, dhcpScan rule mem len start n = .running s ∨
      dhcpScan rule mem len start n = .returned 0 s →
    ∃ items, (∀ item ∈ items, item.Valid rule) ∧
      slice mem OPTIONS (s.options - OPTIONS) = encodeItems items ∧
      s.found = items.foldl (takeItem rule) start
  refused : ∀ n s, dhcpScan rule mem len start n = .returned 1 s →
    ∀ items, OptionSequence rule (optionField mem len) items → ¬ Wanted rule items

/-! ## The condition -/

/-- An option that a scan passes as the grammar has it. -/
def DhcpItem.Plain (rule : Byte → OptionRule ρ) : DhcpItem → Prop
  | .pad => False
  | .option tag value =>
      (DhcpItem.option tag value).Valid rule ∧
        ∀ wanted seen, rule tag = .byteCheck wanted seen → value = [wanted]

/-- An option with this length, and these bytes of the packet after the length, makes a
scan give the packet up. -/
def Refuses : OptionRule ρ → Nat → List Byte → Prop
  | .byteCheck wanted _, n, rest => n ≠ 1 ∨ ∃ value tail, rest = value :: tail ∧ value ≠ wanted
  | .long _, n, _ => n ≠ 4
  | .longs _, n, rest => n = 0 ∨ n % 4 ≠ 0 ∨ 4 ≤ rest.length ∧ rest.length + OPTIONS ≤ n
  | .dns _, n, rest => n % 4 ≠ 0 ∨ 4 ≤ rest.length ∧ rest.length + OPTIONS ≤ n
  | .serverId _, _, _ | .other, _, _ => False

/-- The option field is a row of options without PAD, each of its length, up to END, or
up to an option for which the scan gives the packet up, when it is not of the kind that
the scan waits for. -/
def FieldPlain (rule : Byte → OptionRule ρ) (field : List Byte) : Prop :=
  ∃ items rest, (∀ item ∈ items, item.Plain rule) ∧ field = encodeItems items ++ rest ∧
    ((∃ tail, rest = DHCP_OPTION_END :: tail) ∨
      (∃ tag n tail, rest = tag :: n :: tail ∧ Refuses (rule tag) n.toNat tail) ∧
        ∀ sequence, OptionSequence rule field sequence → ¬ Wanted rule sequence)

/-! ## Rows of items -/

theorem DhcpItem.Plain.valid {rule : Byte → OptionRule ρ} {item : DhcpItem}
    (plain : item.Plain rule) : item.Valid rule := by
  cases item with
  | pad => exact plain.elim
  | option tag value => exact plain.1

@[simp] theorem encodeItems_cons (item : DhcpItem) (items : List DhcpItem) :
    encodeItems (item :: items) = item.encode ++ encodeItems items := rfl

theorem encodeItems_append (first second : List DhcpItem) :
    encodeItems (first ++ second) = encodeItems first ++ encodeItems second :=
  List.flatMap_append

theorem DhcpItem.encode_ne_nil (item : DhcpItem) : item.encode ≠ [] := by
  cases item <;> exact List.cons_ne_nil _ _

theorem encode_inj {rule : Byte → OptionRule ρ} {first second : DhcpItem} {rest other : List Byte}
    (firstValid : first.Valid rule) (secondValid : second.Valid rule)
    (same : first.encode ++ rest = second.encode ++ other) : first = second ∧ rest = other := by
  cases first with
  | pad =>
      cases second with
      | pad => exact ⟨rfl, (List.cons.inj same).2⟩
      | option tag value => exact absurd (List.cons.inj same).1.symm secondValid.1
  | option tag value =>
      cases second with
      | pad => exact absurd (List.cons.inj same).1 firstValid.1
      | option tag' value' =>
          obtain ⟨rfl, tail⟩ := List.cons.inj same
          obtain ⟨lengths, values⟩ := List.cons.inj tail
          have equal := congrArg BitVec.toNat lengths
          rw [BitVec.toNat_ofNat, BitVec.toNat_ofNat, Nat.mod_eq_of_lt firstValid.2.2.1,
            Nat.mod_eq_of_lt secondValid.2.2.1] at equal
          obtain ⟨rfl, rfl⟩ := List.append_inj values equal
          exact ⟨rfl, rfl⟩

theorem encodeItems_longer {rule : Byte → OptionRule ρ} {items longer : List DhcpItem}
    {rest : List Byte} (valid : ∀ item ∈ items, item.Valid rule)
    (longerValid : ∀ item ∈ longer, item.Valid rule)
    (same : encodeItems longer = encodeItems items ++ rest) (more : rest ≠ []) :
    ∃ item tail, longer = items ++ item :: tail ∧ rest = item.encode ++ encodeItems tail := by
  induction items generalizing longer with
  | nil =>
      cases longer with
      | nil => exact absurd same.symm more
      | cons item tail => exact ⟨item, tail, rfl, same.symm⟩
  | cons first items past =>
      cases longer with
      | nil =>
          rw [encodeItems_cons, List.append_assoc] at same
          exact absurd (List.append_eq_nil_iff.mp same.symm).1 first.encode_ne_nil
      | cons other tail =>
          rw [encodeItems_cons, encodeItems_cons, List.append_assoc] at same
          obtain ⟨rfl, after⟩ := encode_inj (longerValid _ (List.mem_cons_self ..))
            (valid _ (List.mem_cons_self ..)) same
          obtain ⟨item, tail', rfl, bytes⟩ := past
            (fun item member => valid item (List.mem_cons_of_mem _ member))
            (fun item member => longerValid item (List.mem_cons_of_mem _ member)) after
          exact ⟨item, tail', rfl, bytes⟩

end PosFirmware.IpStack
