import Mathlib.Tactic
import PosFirmware.Ppp.Pppoe

/-!
# What PPPoE discovery packets can do

Both input functions end on every packet. `pppoe_offer_input` stores names and a cookie of any
length, some of them before it refuses the packet, the walk reads a header behind the last
tag, and a cookie takes the room of the Ethernet header of the PADR packet.
`discovery_safe_iff` says for which packets none of this happens.
-/

namespace PosFirmware.Ppp

/-! ## The tags a walk comes to -/

/-- The tags from a header on. -/
def tagsFrom (p : DiscoveryPacket) (length start len : Nat) : List PppoeTag :=
  let tag := p.tagAt start
  match _found : getNextTag p length tag len with
  | none => [tag]
  | some next => tag :: tagsFrom p length next (subU16 len (p.ntohs (next + 2) + TAG_HDR))
termination_by swap16 length - start
decreasing_by
  obtain ⟨rfl, inside⟩ := getNextTag_some _found
  have later : start < tag.stop := tagAt_lt_stop p start
  omega

/-- The tags of a packet. -/
def DiscoveryPacket.tags (p : DiscoveryPacket) : List PppoeTag :=
  tagsFrom p (p.ntohs 4) PPPOE_HDR (subU16 (p.ntohs 4) (p.ntohs (PPPOE_HDR + 2) + TAG_HDR))

/-- What a loop does with a list of tags. -/
def visitAll {σ : Type} (visit : PppoeTag → σ → TagVisit σ) :
    List PppoeTag → σ → Nat → σ × Bool × Nat
  | [], s, read => (s, false, read)
  | tag :: rest, s, read =>
    let body := visit tag s
    let read := max read body.read
    if body.returns then (body.state, true, read)
    else visitAll visit rest body.state (max read (tag.stop + TAG_HDR))

theorem tagLoop_eq {σ : Type} (p : DiscoveryPacket) (length : Nat)
    (visit : PppoeTag → σ → TagVisit σ) (start len : Nat) (s : σ) (read : Nat) :
    tagLoop p length visit start len s read =
      visitAll visit (tagsFrom p length start len) s read := by
  fun_induction tagsFrom p length start len generalizing s read with
  | case1 start len tag found =>
    rw [tagLoop, visitAll]
    dsimp only
    split
    · rfl
    · rw [visitAll]
      split
      · rfl
      · next next other => exact absurd (found.symm.trans other) (Option.some_ne_none _).symm
  | case2 start len tag next found past =>
    rw [tagLoop, visitAll]
    dsimp only
    split
    · rfl
    · split
      · next other => exact absurd (found.symm.trans other) (Option.some_ne_none _)
      · next next' other =>
        cases found.symm.trans other
        exact past _ _

/-! ## What a packet carries -/

/-- A tag that tells of an error. -/
def PppoeTag.isError (tag : PppoeTag) : Bool :=
  tag.type = PTT_SRV_ERR || tag.type = PTT_SYS_ERR || tag.type = PTT_GEN_ERR

/-- A tag of a type. -/
def PppoeTag.has (type : Nat) (tag : PppoeTag) : Bool := tag.type = type

/-- A Host-Uniq tag that is not the one sent. -/
def PppoeTag.wrongUniq (hostUniq : List Byte) (tag : PppoeTag) : Bool :=
  tag.has PTT_HOST_UNIQ && (tag.data.length ≠ HOST_UNIQ_SIZE || hostUniq ≠ tag.data)

/-- The last tag of a type. -/
def lastOf (type : Nat) (tags : List PppoeTag) : Option PppoeTag :=
  (tags.filter (·.has type)).getLast?

/-- The walk reads up to the header behind each tag. -/
def reach (read : Nat) (tags : List PppoeTag) : Nat :=
  tags.foldl (fun read tag => max read (tag.stop + TAG_HDR)) read

theorem reach_le_iff {read size : Nat} {tags : List PppoeTag} :
    reach read tags ≤ size ↔ read ≤ size ∧ ∀ tag ∈ tags, tag.stop + TAG_HDR ≤ size := by
  induction tags generalizing read with
  | nil => simp [reach]
  | cons tag rest past =>
    have step : reach read (tag :: rest) = reach (max read (tag.stop + TAG_HDR)) rest := rfl
    rw [step, past, max_le_iff, List.forall_mem_cons, and_assoc]

theorem le_reach {read : Nat} {tags : List PppoeTag} {tag : PppoeTag} (member : tag ∈ tags) :
    tag.stop + TAG_HDR ≤ reach read tags :=
  (reach_le_iff.mp le_rfl).2 tag member

/-! ## PADS -/

theorem visitAll_sesTag (tags : List PppoeTag) (error : Bool) (read : Nat) :
    visitAll sesTag tags error read = (error || tags.any (·.isError), false, reach read tags) := by
  induction tags generalizing error read with
  | nil => simp [visitAll, reach]
  | cons tag rest past =>
    have step : reach read (tag :: rest) = reach (max read (tag.stop + TAG_HDR)) rest := rfl
    rw [visitAll, step, List.any_cons]
    by_cases bad : tag.type = PTT_SRV_ERR ∨ tag.type = PTT_SYS_ERR ∨ tag.type = PTT_GEN_ERR
    · have isError : tag.isError = true := by
        simp only [PppoeTag.isError, Bool.or_eq_true, decide_eq_true_eq, or_assoc]
        exact bad
      simp [sesTag, if_pos bad, isError, past]
    · have isError : tag.isError = false := by
        simp only [PppoeTag.isError, Bool.or_eq_false_iff, decide_eq_false_iff_not]
        push Not at bad
        exact ⟨⟨bad.1, bad.2.1⟩, bad.2.2⟩
      simp [sesTag, if_neg bad, isError, past]

/-! ## PADO -/

section Offer

variable {hostUniq : List Byte}

/-- The fields the loop of `pppoe_offer_input` leaves after tags none of which it returns at. -/
structure Walked (s : OfferState) (tags : List PppoeTag) (t : OfferState) : Prop where
  dev : t.dev = if s.serviceOk then s.dev else
    match tags.find? (·.has PTT_SRV_NAME) with
    | some tag => { s.dev with
        serviceName := memcpyTo s.dev.serviceName tag.data, serviceNameLen := tag.data.length }
    | none => s.dev
  overflow : t.overflow = (s.overflow || (!s.serviceOk &&
    ((tags.find? (·.has PTT_SRV_NAME)).any fun tag => decide (NAME_SIZE < tag.data.length))))
  serviceOk : t.serviceOk = (s.serviceOk || (tags.find? (·.has PTT_SRV_NAME)).isSome)
  acStr : t.acStr = (lastOf PTT_AC_NAME tags).or s.acStr
  cookieStr : t.cookieStr = (lastOf PTT_AC_COOKIE tags).or s.cookieStr
  haveHostUniq : t.haveHostUniq = (s.haveHostUniq || tags.any (·.has PTT_HOST_UNIQ))
  error : t.error = (s.error || tags.any (·.isError))

theorem lastOf_cons (type : Nat) (tag : PppoeTag) (rest : List PppoeTag) :
    lastOf type (tag :: rest) = (lastOf type rest).or (if tag.has type then some tag else none) := by
  unfold lastOf
  rw [List.filter_cons]
  split
  · rw [List.getLast?_cons]
    cases (rest.filter (·.has type)).getLast? <;> rfl
  · rw [Option.or_none]

theorem lastOf_single (type : Nat) (tag : PppoeTag) :
    lastOf type [tag] = if tag.has type then some tag else none := by
  rw [lastOf_cons]
  rfl

theorem Walked.cons {s t : OfferState} {tag : PppoeTag} {rest : List PppoeTag}
    (first : Walked s [tag] (offerTag tag s).state)
    (later : Walked (offerTag tag s).state rest t) : Walked s (tag :: rest) t := by
  generalize (offerTag tag s).state = m at first later
  obtain ⟨dev, overflow, serviceOk, acStr, cookieStr, haveHostUniq, error⟩ := first
  constructor
  case dev =>
    rw [later.dev, serviceOk, dev]
    cases s.serviceOk <;> cases name : tag.has PTT_SRV_NAME <;> simp [name]
  case overflow =>
    rw [later.overflow, serviceOk, overflow]
    cases s.serviceOk <;> cases name : tag.has PTT_SRV_NAME <;> simp [name]
  case serviceOk =>
    rw [later.serviceOk, serviceOk]
    cases name : tag.has PTT_SRV_NAME <;> simp [name]
  case acStr => rw [later.acStr, acStr, lastOf_cons _ tag rest, lastOf_single, Option.or_assoc]
  case cookieStr =>
    rw [later.cookieStr, cookieStr, lastOf_cons _ tag rest, lastOf_single, Option.or_assoc]
  case haveHostUniq => rw [later.haveHostUniq, haveHostUniq]; simp [Bool.or_assoc]
  case error => rw [later.error, error]; simp [Bool.or_assoc]

/-- A tag the loop does not return at. -/
structure Passed (tag : PppoeTag) (s : OfferState) : Prop where
  returns : (offerTag tag s).returns = false
  read : (offerTag tag s).read ≤ tag.stop
  hostUniq : (offerTag tag s).state.dev.hostUniq = s.dev.hostUniq
  walked : Walked s [tag] (offerTag tag s).state

theorem offerTag_passed {tag : PppoeTag} {s : OfferState}
    (good : tag.wrongUniq s.dev.hostUniq = false) : Passed tag s := by
  have inside : tag.start ≤ tag.stop := by
    rw [PppoeTag.stop, Nat.add_assoc]
    exact Nat.le_add_right _ _
  obtain ⟨start, type, data⟩ := tag
  by_cases service : type = PTT_SRV_NAME
  · subst service
    cases ok : s.serviceOk with
    | false =>
      constructor
      case walked =>
        constructor <;> simp [offerTag, ok, PppoeTag.has, PppoeTag.isError, lastOf, PTT_SRV_NAME,
          PTT_AC_NAME, PTT_HOST_UNIQ, PTT_AC_COOKIE, PTT_SRV_ERR, PTT_SYS_ERR, PTT_GEN_ERR]
      all_goals simp [offerTag, ok]
    | true =>
      constructor
      case walked =>
        constructor <;> simp [offerTag, ok, PppoeTag.has, PppoeTag.isError, lastOf, PTT_SRV_NAME,
          PTT_AC_NAME, PTT_HOST_UNIQ, PTT_AC_COOKIE, PTT_SRV_ERR, PTT_SYS_ERR, PTT_GEN_ERR]
      all_goals simp [offerTag, ok]
  · by_cases acName : type = PTT_AC_NAME
    · subst acName
      constructor
      case walked =>
        constructor <;> simp [offerTag, PppoeTag.has, PppoeTag.isError, lastOf, PTT_SRV_NAME,
          PTT_AC_NAME, PTT_HOST_UNIQ, PTT_AC_COOKIE, PTT_SRV_ERR, PTT_SYS_ERR, PTT_GEN_ERR]
      all_goals simp [offerTag, PTT_SRV_NAME, PTT_AC_NAME]
    · by_cases uniq : type = PTT_HOST_UNIQ
      · subst uniq
        have right : data.length = HOST_UNIQ_SIZE ∧ s.dev.hostUniq = data := by
          simpa [PppoeTag.wrongUniq, PppoeTag.has] using good
        constructor
        case walked =>
          constructor <;> simp [offerTag, right, PppoeTag.has, PppoeTag.isError, lastOf, PTT_SRV_NAME,
            PTT_AC_NAME, PTT_HOST_UNIQ, PTT_AC_COOKIE, PTT_SRV_ERR, PTT_SYS_ERR, PTT_GEN_ERR]
        all_goals simp [offerTag, right, PTT_SRV_NAME, PTT_AC_NAME, PTT_HOST_UNIQ]
      · by_cases cookie : type = PTT_AC_COOKIE
        · subst cookie
          constructor
          case walked =>
            constructor <;> simp [offerTag, PppoeTag.has, PppoeTag.isError, lastOf, PTT_SRV_NAME,
              PTT_AC_NAME, PTT_HOST_UNIQ, PTT_AC_COOKIE, PTT_SRV_ERR, PTT_SYS_ERR, PTT_GEN_ERR]
          all_goals simp [offerTag, PTT_SRV_NAME, PTT_AC_NAME, PTT_HOST_UNIQ, PTT_AC_COOKIE]
        · by_cases error : type = PTT_SRV_ERR ∨ type = PTT_SYS_ERR ∨ type = PTT_GEN_ERR
          · constructor
            case walked =>
              constructor <;> simp [offerTag, service, acName, uniq, cookie, error, PppoeTag.has,
                PppoeTag.isError, lastOf, or_assoc]
            all_goals simp [offerTag, service, acName, uniq, cookie, error]
          · have plain := error
            push Not at plain
            constructor
            case walked =>
              constructor <;> simp [offerTag, service, acName, uniq, cookie, plain, PppoeTag.has,
                PppoeTag.isError, lastOf]
            all_goals simp [offerTag, service, acName, uniq, cookie, plain]

theorem offerTag_wrong {tag : PppoeTag} {s : OfferState}
    (wrong : tag.wrongUniq s.dev.hostUniq = true) :
    offerTag tag s =
      ⟨s, true, if tag.data.length = HOST_UNIQ_SIZE then tag.stop else 0⟩ := by
  simp only [PppoeTag.wrongUniq, PppoeTag.has, Bool.and_eq_true, decide_eq_true_eq,
    Bool.or_eq_true] at wrong
  obtain ⟨uniq, wrong⟩ := wrong
  have notService : ¬ tag.type = PTT_SRV_NAME := by rw [uniq]; decide
  have notName : ¬ tag.type = PTT_AC_NAME := by rw [uniq]; decide
  unfold offerTag
  rw [if_neg notService, if_neg notName, if_pos uniq]
  by_cases size : tag.data.length = HOST_UNIQ_SIZE
  · have differs : s.dev.hostUniq ≠ tag.data := wrong.resolve_left (not_not.mpr size)
    rw [if_neg (not_not.mpr size), if_pos differs, if_pos size]
  · rw [if_pos size, if_neg size]

/-- The tags before a wrong Host-Uniq tag. -/
def goodTags (hostUniq : List Byte) (tags : List PppoeTag) : List PppoeTag :=
  tags.takeWhile fun tag => !tag.wrongUniq hostUniq

/-- The first wrong Host-Uniq tag. -/
def wrongTag (hostUniq : List Byte) (tags : List PppoeTag) : Option PppoeTag :=
  tags.find? (·.wrongUniq hostUniq)

/-- Where the loop of `pppoe_offer_input` stops reading. -/
def offerReach (hostUniq : List Byte) (tags : List PppoeTag) (read : Nat) : Nat :=
  let read := reach read (goodTags hostUniq tags)
  match wrongTag hostUniq tags with
  | some tag => max read (if tag.data.length = HOST_UNIQ_SIZE then tag.stop else 0)
  | none => read

theorem visitAll_offerTag (tags : List PppoeTag) (s : OfferState) (read : Nat) :
    ∃ t, Walked s (goodTags s.dev.hostUniq tags) t ∧ t.dev.hostUniq = s.dev.hostUniq ∧
      visitAll offerTag tags s read = (t, (wrongTag s.dev.hostUniq tags).isSome,
        offerReach s.dev.hostUniq tags read) := by
  induction tags generalizing s read with
  | nil =>
    refine ⟨s, ?_, rfl, rfl⟩
    constructor <;> simp [goodTags, lastOf]
  | cons tag rest past =>
    cases wrong : tag.wrongUniq s.dev.hostUniq with
    | true =>
      have none : goodTags s.dev.hostUniq (tag :: rest) = [] := by simp [goodTags, wrong]
      have here : wrongTag s.dev.hostUniq (tag :: rest) = some tag := by simp [wrongTag, wrong]
      refine ⟨s, ?_, rfl, ?_⟩
      · rw [none]
        constructor <;> simp [lastOf]
      · rw [visitAll, offerTag_wrong wrong, offerReach, none, here]
        rfl
    | false =>
      obtain ⟨returns, inside, hostUniq, first⟩ := offerTag_passed wrong
      have more : goodTags s.dev.hostUniq (tag :: rest) = tag :: goodTags s.dev.hostUniq rest := by
        simp [goodTags, wrong]
      have later : wrongTag s.dev.hostUniq (tag :: rest) = wrongTag s.dev.hostUniq rest := by
        simp [wrongTag, wrong]
      obtain ⟨t, walked, same, visited⟩ := past (offerTag tag s).state
        (max read (tag.stop + TAG_HDR))
      rw [hostUniq] at walked same visited
      have far : max (max read (offerTag tag s).read) (tag.stop + TAG_HDR) =
          max read (tag.stop + TAG_HDR) := by omega
      refine ⟨t, ?_, same, ?_⟩
      · rw [more]
        exact first.cons walked
      · rw [visitAll, returns, if_neg Bool.false_ne_true, far, visited, later, offerReach,
          offerReach, more, later]
        rfl

end Offer

/-! ## What has to hold of a packet -/

/-- The device holds this service name. -/
def PppoeDev.HoldsService (dev : PppoeDev) (tag : PppoeTag) : Prop :=
  tag.data <+: dev.serviceName ∧ dev.serviceNameLen = tag.data.length

/-- The device holds this name of an access concentrator. -/
def PppoeDev.HoldsAc (dev : PppoeDev) (tag : PppoeTag) : Prop :=
  tag.data <+: dev.acName ∧ dev.acNameLen = tag.data.length

/-- The first service name before a wrong Host-Uniq tag. -/
def DiscoveryPacket.service (p : DiscoveryPacket) (hostUniq : List Byte) : Option PppoeTag :=
  (goodTags hostUniq p.tags).find? (·.has PTT_SRV_NAME)

/-- The last tag of a type before a wrong Host-Uniq tag. -/
def DiscoveryPacket.last (p : DiscoveryPacket) (hostUniq : List Byte) (type : Nat) :
    Option PppoeTag :=
  lastOf type (goodTags hostUniq p.tags)

/-- A packet has no wrong Host-Uniq tag, and has a right one and a service name. -/
def DiscoveryPacket.Complete (p : DiscoveryPacket) (hostUniq : List Byte) : Prop :=
  wrongTag hostUniq p.tags = none ∧ (p.service hostUniq).isSome = true ∧
    (goodTags hostUniq p.tags).any (·.has PTT_HOST_UNIQ) = true

/-- A packet has a tag that tells of an error. -/
def DiscoveryPacket.TellsError (p : DiscoveryPacket) (hostUniq : List Byte) : Prop :=
  (goodTags hostUniq p.tags).any (·.isError) = true

/-- The length of the cookie after a packet. -/
def cookieLenAfter (dev : PppoeDev) (p : DiscoveryPacket) : Nat :=
  match p.last dev.hostUniq PTT_AC_COOKIE with
  | some tag => tag.data.length
  | none => dev.acCookieLen

/-- The length of the service name of a packet. -/
def DiscoveryPacket.serviceLen (p : DiscoveryPacket) (hostUniq : List Byte) : Nat :=
  match p.service hostUniq with
  | some tag => tag.data.length
  | none => 0

/-- What has to hold of a PADO packet with tags. -/
structure OfferMeets (dev : PppoeDev) (p : DiscoveryPacket) : Prop where
  /-- The packet has a tag header, and room for one behind each tag the walk comes to. -/
  first : PPPOE_HDR + TAG_HDR ≤ p.size
  tags : ∀ tag ∈ goodTags dev.hostUniq p.tags, tag.stop + TAG_HDR ≤ p.size
  /-- A Host-Uniq tag that is compared is inside. -/
  uniq : ∀ tag, wrongTag dev.hostUniq p.tags = some tag → tag.data.length = HOST_UNIQ_SIZE →
    tag.stop ≤ p.size
  /-- The names and the cookie have their place. -/
  service : ∀ tag, p.service dev.hostUniq = some tag → tag.data.length ≤ NAME_SIZE
  acName : p.Complete dev.hostUniq → ∀ tag, p.last dev.hostUniq PTT_AC_NAME = some tag →
    tag.data.length ≤ NAME_SIZE
  cookie : p.Complete dev.hostUniq → ¬ p.TellsError dev.hostUniq →
    ∀ tag, p.last dev.hostUniq PTT_AC_COOKIE = some tag → tag.data.length ≤ COOKIE_SIZE
  /-- A packet that is not complete, or tells of an error, has no new names. -/
  oldService : ¬ p.Complete dev.hostUniq ∨ p.TellsError dev.hostUniq →
    ∀ tag, p.service dev.hostUniq = some tag → dev.HoldsService tag
  oldAc : p.Complete dev.hostUniq → p.TellsError dev.hostUniq →
    ∀ tag, p.last dev.hostUniq PTT_AC_NAME = some tag → 0 < tag.data.length → dev.HoldsAc tag
  /-- There is no cookie to send back, or no buffer for it. -/
  padr : p.Complete dev.hostUniq → ¬ p.TellsError dev.hostUniq → cookieLenAfter dev p = 0 ∨
    SKB_LARGEST < 36 + p.serviceLen dev.hostUniq + cookieLenAfter dev p

/-- A packet and what it brings about: only its bytes are read, no field overflows, a packet
that is refused changes nothing, and the answer to one that is accepted has room in its buffer. -/
structure InputSafe (dev : PppoeDev) (p : DiscoveryPacket) (r : DiscoveryResult) : Prop where
  read : r.read ≤ p.size
  stores : r.overflow = false
  refused : r.ret ≠ 0 → r.dev = dev
  accepted : r.ret = 0 → pppoeReqSend r.dev ≠ some none

theorem skbPush_fits {room len : Nat} (fits : len ≤ room) :
    skbPush (some room) len = some (room - len) := if_neg (Nat.not_lt.mpr fits)

theorem skbPush_full {room len : Nat} (full : room < len) : skbPush (some room) len = none :=
  if_pos full

theorem pppoeReqSend_fits_iff (dev : PppoeDev) : pppoeReqSend dev ≠ some none ↔
    dev.acCookieLen = 0 ∨ SKB_LARGEST < 36 + dev.serviceNameLen + dev.acCookieLen := by
  have size : padrSize dev = 36 + dev.serviceNameLen + dev.acCookieLen := by
    simp only [padrSize, ETH_HDR, PPPOE_HDR, HOST_UNIQ_SIZE, TAG_HDR]
    omega
  unfold pppoeReqSend padrPushes
  rw [size]
  simp only [TAG_HDR, HOST_UNIQ_SIZE, PPPOE_HDR, ETH_HDR]
  by_cases large : SKB_LARGEST < 36 + dev.serviceNameLen + dev.acCookieLen
  · simp [large]
  · rw [if_neg large]
    by_cases cookie : dev.acCookieLen = 0
    · rw [if_neg (by omega), List.nil_append]
      simp only [List.foldl_cons, List.foldl_nil]
      rw [skbPush_fits (by omega), skbPush_fits (by omega), skbPush_fits (by omega),
        skbPush_fits (by omega)]
      simp [cookie]
    · rw [if_pos (by omega)]
      simp only [List.cons_append, List.nil_append, List.foldl_cons, List.foldl_nil]
      rw [skbPush_fits (by omega), skbPush_fits (by omega), skbPush_fits (by omega),
        skbPush_fits (by omega), skbPush_full (by omega)]
      simp [cookie, large]

/-! ## Fields that are stored -/

/-- The service name of a tag is stored. -/
def PppoeDev.storeService (dev : PppoeDev) : Option PppoeTag → PppoeDev
  | some tag => { dev with
      serviceName := memcpyTo dev.serviceName tag.data, serviceNameLen := tag.data.length }
  | none => dev

/-- The name of the access concentrator is stored, unless it is empty. -/
def PppoeDev.storeAc (dev : PppoeDev) : Option PppoeTag → PppoeDev
  | some tag =>
    if 0 < tag.data.length then
      { dev with acName := memcpyTo dev.acName tag.data, acNameLen := tag.data.length }
    else dev
  | none => dev

/-- The cookie is stored. -/
def PppoeDev.storeCookie (dev : PppoeDev) : Option PppoeTag → PppoeDev
  | some tag => { dev with
      acCookie := memcpyTo dev.acCookie tag.data, acCookieLen := tag.data.length }
  | none => dev

/-- The data of a tag is longer than a field. -/
def tooLong (size : Nat) (tag : Option PppoeTag) : Bool :=
  tag.any fun tag => decide (size < tag.data.length)

theorem memcpyTo_eq_iff {field data : List Byte} : memcpyTo field data = field ↔ data <+: field := by
  constructor
  · intro same
    exact ⟨field.drop data.length, same⟩
  · rintro ⟨rest, rfl⟩
    rw [memcpyTo, List.drop_left]

theorem tooLong_eq_false_iff {size : Nat} {tag : Option PppoeTag} :
    tooLong size tag = false ↔ ∀ held, tag = some held → held.data.length ≤ size := by
  cases tag <;> simp [tooLong]

theorem storeService_eq_iff {dev : PppoeDev} {tag : Option PppoeTag} :
    dev.storeService tag = dev ↔ ∀ held, tag = some held → dev.HoldsService held := by
  cases tag with
  | none => simp [PppoeDev.storeService]
  | some tag =>
    cases dev
    simp only [PppoeDev.storeService, PppoeDev.HoldsService, PppoeDev.mk.injEq, memcpyTo_eq_iff,
      Option.some.injEq, forall_eq', true_and, and_true]
    exact and_congr_right fun _ => eq_comm

theorem storeNames_eq_iff {dev : PppoeDev} {service ac : Option PppoeTag} :
    (dev.storeService service).storeAc ac = dev ↔ dev.storeService service = dev ∧
      ∀ held, ac = some held → 0 < held.data.length → dev.HoldsAc held := by
  cases ac with
  | none => simp [PppoeDev.storeAc]
  | some tag =>
    by_cases long : 0 < tag.data.length
    · cases dev
      cases service <;>
      · simp only [PppoeDev.storeAc, PppoeDev.storeService, ↓reduceIte, PppoeDev.HoldsAc,
          PppoeDev.mk.injEq, memcpyTo_eq_iff, Option.some.injEq, forall_eq', true_and, and_true,
          long, forall_const, and_assoc]
        tauto
    · simp [PppoeDev.storeAc, long]

theorem storeAc_acCookieLen (dev : PppoeDev) (tag : Option PppoeTag) :
    (dev.storeAc tag).acCookieLen = dev.acCookieLen := by
  unfold PppoeDev.storeAc
  cases tag with
  | none => rfl
  | some tag => dsimp only; split <;> rfl

theorem storeAc_serviceNameLen (dev : PppoeDev) (tag : Option PppoeTag) :
    (dev.storeAc tag).serviceNameLen = dev.serviceNameLen := by
  unfold PppoeDev.storeAc
  cases tag with
  | none => rfl
  | some tag => dsimp only; split <;> rfl

/-! ## The function behind the loop -/

theorem offerEnd_complete {p : DiscoveryPacket} {t : OfferState} {read : Nat}
    (serviceOk : t.serviceOk = true) (haveHostUniq : t.haveHostUniq = true)
    (acInside : ∀ tag, t.acStr = some tag → tag.stop ≤ read)
    (cookieInside : ∀ tag, t.cookieStr = some tag → tag.stop ≤ read) :
    offerEnd p t read =
      if t.error then
        ⟨-1, t.dev.storeAc t.acStr, read, t.overflow || tooLong NAME_SIZE t.acStr⟩
      else
        ⟨0, { (t.dev.storeAc t.acStr).storeCookie t.cookieStr with servMac := p.hSource }, read,
          t.overflow || tooLong NAME_SIZE t.acStr || tooLong COOKIE_SIZE t.cookieStr⟩ := by
  obtain ⟨dev, ok, acStr, cookieStr, uniq, error, overflow⟩ := t
  dsimp only at serviceOk haveHostUniq acInside cookieInside
  subst serviceOk haveHostUniq
  unfold offerEnd
  rw [if_neg Bool.noConfusion, if_neg Bool.noConfusion]
  have named : ∀ name, acStr = some name → max read name.stop = read :=
    fun name here => max_eq_left (acInside name here)
  have baked : ∀ tag, cookieStr = some tag → max read tag.stop = read :=
    fun tag here => max_eq_left (cookieInside tag here)
  cases acStr with
  | none =>
    cases error <;> cases cookieStr <;>
      simp [PppoeDev.storeAc, PppoeDev.storeCookie, tooLong, baked]
  | some name =>
    by_cases long : 0 < name.data.length
    · cases error <;> cases cookieStr <;>
        simp [PppoeDev.storeAc, PppoeDev.storeCookie, tooLong, long, named, baked]
    · have short : ¬ NAME_SIZE < name.data.length := fun longer => long (by omega)
      cases error <;> cases cookieStr <;>
        simp [PppoeDev.storeAc, PppoeDev.storeCookie, tooLong, long, short, baked]

/-! ## The theorem -/

theorem offerReach_le_iff {hostUniq : List Byte} {tags : List PppoeTag} {read size : Nat} :
    offerReach hostUniq tags read ≤ size ↔ read ≤ size ∧
      (∀ tag ∈ goodTags hostUniq tags, tag.stop + TAG_HDR ≤ size) ∧
      ∀ tag, wrongTag hostUniq tags = some tag → tag.data.length = HOST_UNIQ_SIZE →
        tag.stop ≤ size := by
  unfold offerReach
  cases wrong : wrongTag hostUniq tags with
  | none => simp [reach_le_iff]
  | some tag =>
    simp only [max_le_iff, reach_le_iff, Option.some.injEq, forall_eq', and_assoc]
    by_cases compared : tag.data.length = HOST_UNIQ_SIZE <;> simp [compared]

theorem offer_incomplete {dev : PppoeDev} {p : DiscoveryPacket} {read : Nat}
    (reads : read = offerReach dev.hostUniq p.tags (PPPOE_HDR + TAG_HDR))
    (incomplete : ¬ p.Complete dev.hostUniq) :
    InputSafe dev p ⟨-1, dev.storeService (p.service dev.hostUniq), read,
      tooLong NAME_SIZE (p.service dev.hostUniq)⟩ ↔ OfferMeets dev p := by
  have inside := @offerReach_le_iff dev.hostUniq p.tags (PPPOE_HDR + TAG_HDR) p.size
  rw [← reads] at inside
  constructor
  · rintro ⟨reading, stores, refused, -⟩
    obtain ⟨first, tags, uniq⟩ := inside.mp reading
    have same := storeService_eq_iff.mp (refused (show (-1 : Int) ≠ 0 by decide))
    exact ⟨first, tags, uniq, tooLong_eq_false_iff.mp stores,
      fun complete => absurd complete incomplete, fun complete => absurd complete incomplete,
      fun _ => same, fun complete => absurd complete incomplete,
      fun complete => absurd complete incomplete⟩
  · intro meets
    refine ⟨inside.mpr ⟨meets.first, meets.tags, meets.uniq⟩, tooLong_eq_false_iff.mpr meets.service,
      fun _ => storeService_eq_iff.mpr (meets.oldService (.inl incomplete)), fun ok => ?_⟩
    exact absurd ok (show ¬ (-1 : Int) = 0 by decide)

theorem offer_error {dev : PppoeDev} {p : DiscoveryPacket} {read : Nat}
    (reads : read = offerReach dev.hostUniq p.tags (PPPOE_HDR + TAG_HDR))
    (complete : p.Complete dev.hostUniq) (error : p.TellsError dev.hostUniq) :
    InputSafe dev p ⟨-1, (dev.storeService (p.service dev.hostUniq)).storeAc
        (p.last dev.hostUniq PTT_AC_NAME), read,
      tooLong NAME_SIZE (p.service dev.hostUniq) ||
        tooLong NAME_SIZE (p.last dev.hostUniq PTT_AC_NAME)⟩ ↔ OfferMeets dev p := by
  have inside := @offerReach_le_iff dev.hostUniq p.tags (PPPOE_HDR + TAG_HDR) p.size
  rw [← reads] at inside
  constructor
  · rintro ⟨reading, stores, refused, -⟩
    obtain ⟨first, tags, uniq⟩ := inside.mp reading
    obtain ⟨service, ac⟩ := Bool.or_eq_false_iff.mp stores
    obtain ⟨oldService, oldAc⟩ := storeNames_eq_iff.mp (refused (show (-1 : Int) ≠ 0 by decide))
    exact ⟨first, tags, uniq, tooLong_eq_false_iff.mp service, fun _ => tooLong_eq_false_iff.mp ac,
      fun _ fine => absurd error fine, fun _ => storeService_eq_iff.mp oldService, fun _ _ => oldAc,
      fun _ fine => absurd error fine⟩
  · intro meets
    refine ⟨inside.mpr ⟨meets.first, meets.tags, meets.uniq⟩, ?_, fun _ => ?_, fun ok => ?_⟩
    · exact Bool.or_eq_false_iff.mpr ⟨tooLong_eq_false_iff.mpr meets.service,
        tooLong_eq_false_iff.mpr (meets.acName complete)⟩
    · exact storeNames_eq_iff.mpr ⟨storeService_eq_iff.mpr (meets.oldService (.inr error)),
        meets.oldAc complete error⟩
    · exact absurd ok (show ¬ (-1 : Int) = 0 by decide)

theorem offer_accepted {dev : PppoeDev} {p : DiscoveryPacket} {read : Nat}
    (reads : read = offerReach dev.hostUniq p.tags (PPPOE_HDR + TAG_HDR))
    (complete : p.Complete dev.hostUniq) (fine : ¬ p.TellsError dev.hostUniq) :
    InputSafe dev p ⟨0, { ((dev.storeService (p.service dev.hostUniq)).storeAc
        (p.last dev.hostUniq PTT_AC_NAME)).storeCookie (p.last dev.hostUniq PTT_AC_COOKIE) with
          servMac := p.hSource }, read,
      tooLong NAME_SIZE (p.service dev.hostUniq) ||
        tooLong NAME_SIZE (p.last dev.hostUniq PTT_AC_NAME) ||
        tooLong COOKIE_SIZE (p.last dev.hostUniq PTT_AC_COOKIE)⟩ ↔ OfferMeets dev p := by
  have inside := @offerReach_le_iff dev.hostUniq p.tags (PPPOE_HDR + TAG_HDR) p.size
  rw [← reads] at inside
  have fits := pppoeReqSend_fits_iff { ((dev.storeService (p.service dev.hostUniq)).storeAc
        (p.last dev.hostUniq PTT_AC_NAME)).storeCookie (p.last dev.hostUniq PTT_AC_COOKIE) with
          servMac := p.hSource }
  have cookie : (((dev.storeService (p.service dev.hostUniq)).storeAc
      (p.last dev.hostUniq PTT_AC_NAME)).storeCookie
        (p.last dev.hostUniq PTT_AC_COOKIE)).acCookieLen = cookieLenAfter dev p := by
    unfold cookieLenAfter
    cases p.last dev.hostUniq PTT_AC_COOKIE with
    | some tag => rfl
    | none =>
      rw [PppoeDev.storeCookie, storeAc_acCookieLen]
      cases p.service dev.hostUniq <;> rfl
  have service : (((dev.storeService (p.service dev.hostUniq)).storeAc
      (p.last dev.hostUniq PTT_AC_NAME)).storeCookie
        (p.last dev.hostUniq PTT_AC_COOKIE)).serviceNameLen = p.serviceLen dev.hostUniq := by
    obtain ⟨name, named⟩ := Option.isSome_iff_exists.mp complete.2.1
    have stored : ((dev.storeService (some name)).storeAc
        (p.last dev.hostUniq PTT_AC_NAME)).serviceNameLen = name.data.length :=
      storeAc_serviceNameLen _ _
    rw [DiscoveryPacket.serviceLen, named]
    cases p.last dev.hostUniq PTT_AC_COOKIE <;> exact stored
  rw [cookie, service] at fits
  constructor
  · rintro ⟨reading, stores, -, accepted⟩
    obtain ⟨first, tags, uniq⟩ := inside.mp reading
    obtain ⟨names, cookie⟩ := Bool.or_eq_false_iff.mp stores
    obtain ⟨service, ac⟩ := Bool.or_eq_false_iff.mp names
    exact ⟨first, tags, uniq, tooLong_eq_false_iff.mp service, fun _ => tooLong_eq_false_iff.mp ac,
      fun _ _ => tooLong_eq_false_iff.mp cookie,
      fun wrong => wrong.elim (absurd complete) fun error => absurd error fine,
      fun _ error => absurd error fine, fun _ _ => fits.mp (accepted rfl)⟩
  · intro meets
    refine ⟨inside.mpr ⟨meets.first, meets.tags, meets.uniq⟩, ?_, fun bad => absurd rfl bad,
      fun _ => fits.mpr (meets.padr complete fine)⟩
    exact Bool.or_eq_false_iff.mpr ⟨Bool.or_eq_false_iff.mpr
      ⟨tooLong_eq_false_iff.mpr meets.service, tooLong_eq_false_iff.mpr (meets.acName complete)⟩,
        tooLong_eq_false_iff.mpr (meets.cookie complete fine)⟩

theorem offer_noTags {dev : PppoeDev} {p : DiscoveryPacket} (noTags : p.ntohs 4 = 0) :
    pppoeOfferInput dev p = ⟨-1, dev, PPPOE_HDR, false⟩ := if_pos noTags

/-- `pppoe_offer_input` of a packet with tags. -/
theorem offer_safe_iff {dev : PppoeDev} {p : DiscoveryPacket} (tagged : p.ntohs 4 ≠ 0) :
    InputSafe dev p (pppoeOfferInput dev p) ↔ OfferMeets dev p := by
  obtain ⟨t, walked, -, visited⟩ := visitAll_offerTag p.tags
    ⟨dev, false, none, none, false, false, false⟩ (PPPOE_HDR + TAG_HDR)
  dsimp only at walked visited
  have result : pppoeOfferInput dev p =
      if (wrongTag dev.hostUniq p.tags).isSome then
        ⟨-1, t.dev, offerReach dev.hostUniq p.tags (PPPOE_HDR + TAG_HDR), t.overflow⟩
      else offerEnd p t (offerReach dev.hostUniq p.tags (PPPOE_HDR + TAG_HDR)) := by
    have looped := (tagLoop_eq p (p.ntohs 4) offerTag PPPOE_HDR
      (subU16 (p.ntohs 4) (p.ntohs (PPPOE_HDR + 2) + TAG_HDR)) _ _).trans visited
    unfold pppoeOfferInput
    dsimp only
    rw [if_neg tagged, looped]
  have stored : t.dev = dev.storeService (p.service dev.hostUniq) := walked.dev
  have overflow : t.overflow = tooLong NAME_SIZE (p.service dev.hostUniq) := walked.overflow
  have named : t.serviceOk = (p.service dev.hostUniq).isSome := walked.serviceOk
  have matched : t.haveHostUniq = (goodTags dev.hostUniq p.tags).any (·.has PTT_HOST_UNIQ) :=
    walked.haveHostUniq
  have error : t.error = (goodTags dev.hostUniq p.tags).any (·.isError) := walked.error
  have acStr : t.acStr = p.last dev.hostUniq PTT_AC_NAME :=
    walked.acStr.trans (Option.or_none)
  have cookieStr : t.cookieStr = p.last dev.hostUniq PTT_AC_COOKIE :=
    walked.cookieStr.trans (Option.or_none)
  rw [result]
  by_cases complete : p.Complete dev.hostUniq
  · obtain ⟨noWrong, service, uniq⟩ := complete
    have inside : ∀ type tag, p.last dev.hostUniq type = some tag →
        tag.stop ≤ offerReach dev.hostUniq p.tags (PPPOE_HDR + TAG_HDR) := by
      intro type tag last
      have member : tag ∈ goodTags dev.hostUniq p.tags :=
        List.mem_of_mem_filter (List.mem_of_getLast? last)
      have far := @le_reach (PPPOE_HDR + TAG_HDR) _ _ member
      rw [offerReach, noWrong]
      exact (Nat.le_add_right _ _).trans far
    rw [noWrong, if_neg (by simp), offerEnd_complete (named.trans service) (matched.trans uniq)
      (by rw [acStr]; exact inside _) (by rw [cookieStr]; exact inside _), stored, overflow, acStr,
      cookieStr, error]
    by_cases tells : (goodTags dev.hostUniq p.tags).any (·.isError) = true
    · rw [if_pos tells]
      exact offer_error rfl ⟨noWrong, service, uniq⟩ tells
    · rw [if_neg tells]
      exact offer_accepted rfl ⟨noWrong, service, uniq⟩ tells
  · have incomplete : (if (wrongTag dev.hostUniq p.tags).isSome then
          ⟨-1, t.dev, offerReach dev.hostUniq p.tags (PPPOE_HDR + TAG_HDR), t.overflow⟩
        else offerEnd p t (offerReach dev.hostUniq p.tags (PPPOE_HDR + TAG_HDR))) =
        (⟨-1, t.dev, offerReach dev.hostUniq p.tags (PPPOE_HDR + TAG_HDR), t.overflow⟩ :
          DiscoveryResult) := by
      cases wrong : wrongTag dev.hostUniq p.tags with
      | some tag => rfl
      | none =>
        rw [if_neg (by simp), offerEnd]
        cases ok : t.serviceOk with
        | false => rfl
        | true =>
          have unmatched : t.haveHostUniq = false := by
            rw [matched]
            by_contra matches_
            exact complete ⟨wrong, named.symm.trans ok, Bool.eq_true_of_not_eq_false matches_⟩
          rw [if_neg (by simp), if_pos unmatched]
    rw [incomplete, stored, overflow]
    exact offer_incomplete rfl complete

/-- What has to hold of a PADS packet: room for a tag header behind every tag. -/
def SesMeets (p : DiscoveryPacket) : Prop :=
  PPPOE_HDR ≤ p.size ∧ (p.ntohs 4 ≠ 0 →
    PPPOE_HDR + TAG_HDR ≤ p.size ∧ ∀ tag ∈ p.tags, tag.stop + TAG_HDR ≤ p.size)

theorem ses_read_le_iff (dev : PppoeDev) (p : DiscoveryPacket) :
    (pppoeSesInput dev p).read ≤ p.size ↔ SesMeets p := by
  have header : PPPOE_HDR ≤ PPPOE_HDR + TAG_HDR := Nat.le_add_right _ _
  by_cases noTags : p.ntohs 4 = 0
  · have read : (pppoeSesInput dev p).read = PPPOE_HDR := by
      unfold pppoeSesInput
      dsimp only
      rw [if_pos noTags, if_neg Bool.false_ne_true]
      split <;> rfl
    rw [read]
    exact ⟨fun inside => ⟨inside, absurd noTags⟩, fun meets => meets.1⟩
  · have looped := (tagLoop_eq p (p.ntohs 4) sesTag PPPOE_HDR
      (subU16 (p.ntohs 4) (p.ntohs (PPPOE_HDR + 2) + TAG_HDR)) _ _).trans
        (visitAll_sesTag p.tags false (PPPOE_HDR + TAG_HDR))
    have read : (pppoeSesInput dev p).read = reach (PPPOE_HDR + TAG_HDR) p.tags := by
      unfold pppoeSesInput
      dsimp only
      rw [if_neg noTags, looped]
      dsimp only
      split
      · rfl
      · split <;> rfl
    rw [read, reach_le_iff]
    exact ⟨fun inside => ⟨header.trans inside.1, fun _ => inside⟩, fun meets => meets.2 noTags⟩

theorem ses_keeps (dev : PppoeDev) (p : DiscoveryPacket) :
    (pppoeSesInput dev p).overflow = false ∧
      ((pppoeSesInput dev p).ret ≠ 0 → (pppoeSesInput dev p).dev = dev) := by
  unfold pppoeSesInput
  dsimp only
  generalize (if p.ntohs 4 = 0 then (false, PPPOE_HDR) else _) = walk
  by_cases error : walk.1 = true
  · rw [if_pos error]
    exact ⟨rfl, fun _ => rfl⟩
  · rw [if_neg error]
    by_cases noSession : p.ntohs 2 = 0
    · rw [if_pos noSession]
      exact ⟨rfl, fun _ => rfl⟩
    · rw [if_neg noSession]
      exact ⟨rfl, fun accepted => absurd rfl accepted⟩

/-- **Discovery packets are safe exactly when** they have room for a tag header behind every
tag, their names and cookie fit, a PADO packet that is refused has no new names in it, and one
that is accepted leaves no cookie for the PADR packet. -/
theorem discovery_safe_iff (dev : PppoeDev) (p : DiscoveryPacket) :
    (InputSafe dev p (pppoeOfferInput dev p) ↔
      PPPOE_HDR ≤ p.size ∧ (p.ntohs 4 ≠ 0 → OfferMeets dev p)) ∧
    (((pppoeSesInput dev p).read ≤ p.size ∧ (pppoeSesInput dev p).overflow = false ∧
        ((pppoeSesInput dev p).ret ≠ 0 → (pppoeSesInput dev p).dev = dev)) ↔ SesMeets p) := by
  constructor
  · by_cases noTags : p.ntohs 4 = 0
    · rw [offer_noTags noTags]
      constructor
      · intro safe
        exact ⟨safe.read, absurd noTags⟩
      · intro meets
        exact ⟨meets.1, rfl, fun _ => rfl, fun ok => absurd ok (show ¬ (-1 : Int) = 0 by decide)⟩
    · rw [offer_safe_iff noTags]
      constructor
      · intro meets
        exact ⟨(Nat.le_add_right PPPOE_HDR TAG_HDR).trans meets.first, fun _ => meets⟩
      · intro meets
        exact meets.2 noTags
  · rw [ses_read_le_iff]
    exact ⟨And.left, fun meets => ⟨meets, ses_keeps dev p⟩⟩

/-- A PADO packet with the service name of one byte and no Host-Uniq. -/
def offerOfOther : DiscoveryPacket where
  mem i := [0x11, 0x07, 0, 0, 0, 5, 0x01, 0x01, 0, 1, 0x78].getD i 0
  size := 64
  hSource := [2, 0, 0, 0, 0, 1]

/-- A device before discovery. -/
def devBefore : PppoeDev where
  hostUniq := [1, 2, 3, 4, 5, 6, 7, 8]
  serviceName := List.replicate NAME_SIZE 0
  serviceNameLen := 0
  acName := List.replicate NAME_SIZE 0
  acNameLen := 0
  acCookie := []
  acCookieLen := 0
  servMac := List.replicate 6 0
  sessionId := 0

theorem tagLoop_single {σ : Type} {p : DiscoveryPacket} {length start len : Nat}
    (last : getNextTag p length (p.tagAt start) len = none) (visit : PppoeTag → σ → TagVisit σ)
    (s : σ) (read : Nat) :
    tagLoop p length visit start len s read = visitAll visit [p.tagAt start] s read := by
  rw [tagLoop_eq, tagsFrom]
  split
  · rfl
  · next next found => exact nomatch last.symm.trans found

/-- An offer that is refused leaves its service name in the device. -/
theorem refusedOffer_storesName :
    (pppoeOfferInput devBefore offerOfOther).ret = -1 ∧
      (pppoeOfferInput devBefore offerOfOther).dev.serviceNameLen = 1 ∧
      devBefore.serviceNameLen = 0 ∧
      ¬ InputSafe devBefore offerOfOther (pppoeOfferInput devBefore offerOfOther) := by
  have last : getNextTag offerOfOther 5 (offerOfOther.tagAt PPPOE_HDR) 0 = none := by decide
  have looped := tagLoop_single last offerTag ⟨devBefore, false, none, none, false, false, false⟩
    (PPPOE_HDR + TAG_HDR)
  have result : pppoeOfferInput devBefore offerOfOther =
      ⟨-1, devBefore.storeService (some (offerOfOther.tagAt PPPOE_HDR)), 15, false⟩ := by
    have length : offerOfOther.ntohs 4 = 5 := by decide
    have len : subU16 5 (offerOfOther.ntohs (PPPOE_HDR + 2) + TAG_HDR) = 0 := by decide
    unfold pppoeOfferInput
    rw [length, if_neg (by decide), len]
    dsimp only
    rw [looped]
    rfl
  rw [result]
  refine ⟨rfl, rfl, rfl, fun safe => ?_⟩
  have same := congrArg PppoeDev.serviceNameLen (safe.refused (show (-1 : Int) ≠ 0 by decide))
  exact Nat.one_ne_zero same

end PosFirmware.Ppp
