-- SUMMARY: The Sametime messages of mw_message.h with mwMessage_put and mwMessage_get from message.c.
import Meanwhile.Common.Types

/-!
# Messages

A message is a head and a body. The type code of the head is the one of the
body, so a message whose two parts disagree cannot be built.

`mwMessage_get` returns whatever it has filled in when the data runs out, and
some decoders look at local variables that were never assigned. `Uninit` is what
happens to be in those variables; every decoder that has one takes it as an
argument.
-/

namespace Meanwhile

/-- `enum mwMessageType` -/
inductive MwMessageType where
  | handshake | handshakeAck | login | loginAck | loginRedirect | loginContinue
  | channelCreate | channelDestroy | channelSend | channelAccept
  | setUserStatus | setPrivacyList | senseService | admin | announce
deriving DecidableEq, Repr

def MwMessageType.code : MwMessageType → UInt16
  | .handshake => 0x0000
  | .handshakeAck => 0x8000
  | .login => 0x0001
  | .loginAck => 0x8001
  | .loginRedirect => 0x0018
  | .loginContinue => 0x0016
  | .channelCreate => 0x0002
  | .channelDestroy => 0x0003
  | .channelSend => 0x0004
  | .channelAccept => 0x0006
  | .setUserStatus => 0x0009
  | .setPrivacyList => 0x000b
  | .senseService => 0x0011
  | .admin => 0x0019
  | .announce => 0x0022

/-- The type a code stands for, if it is a known one. -/
def MwMessageType.ofCode (code : UInt16) : Option MwMessageType :=
  [handshake, handshakeAck, login, loginAck, loginRedirect, loginContinue, channelCreate,
    channelDestroy, channelSend, channelAccept, setUserStatus, setPrivacyList, senseService,
    admin, announce].find? (·.code = code)

theorem MwMessageType.ofCode_code (t : MwMessageType) : ofCode t.code = some t := by
  cases t <;> decide

/-- `mwMessageOption_ENCRYPT` -/
def optionEncrypt : UInt16 := 0x4000

/-- `mwMessageOption_HAS_ATTRIBS` -/
def optionHasAttribs : UInt16 := 0x8000

/-- `struct mwMessage`, less the type. -/
structure MwMessageHead where
  options : UInt16 := 0
  channel : UInt32 := 0
  attribs : MwOpaque := []
deriving DecidableEq

/-- `MW_MESSAGE_HAS_OPTION` -/
def MwMessageHead.hasOption (head : MwMessageHead) (opt : UInt16) : Bool :=
  head.options &&& opt ≠ 0

structure MwMsgHandshake where
  major : UInt16 := 0
  minor : UInt16 := 0
  srvrcalcAddr : UInt32 := 0
  loginType : UInt16 := 0
  loclcalcAddr : UInt32 := 0
  unknownA : UInt16 := 0
  unknownB : UInt32 := 0
  localHost : MwString := none
deriving DecidableEq

structure MwMsgHandshakeAck where
  major : UInt16 := 0
  minor : UInt16 := 0
  srvrcalcAddr : UInt32 := 0
  magic : UInt32 := 0
  data : MwOpaque := []
deriving DecidableEq

structure MwMsgLogin where
  loginType : UInt16 := 0
  name : MwString := none
  authType : UInt16 := 0
  authData : MwOpaque := []
deriving DecidableEq

structure MwMsgLoginAck where
  login : MwLoginInfo := {}
  privacy : MwPrivacyInfo := {}
  status : MwUserStatus := {}
deriving DecidableEq

structure MwMsgLoginRedirect where
  host : MwString := none
  serverId : MwString := none
deriving DecidableEq

structure MwEncryptOffer where
  mode : UInt16 := 0
  items : List MwEncryptItem := []
  extra : UInt16 := 0
  flag : Bool := false
deriving DecidableEq

structure MwMsgChannelCreate where
  reserved : UInt32 := 0
  channel : UInt32 := 0
  target : MwIdBlock := {}
  service : UInt32 := 0
  protoType : UInt32 := 0
  protoVer : UInt32 := 0
  options : UInt32 := 0
  addtl : MwOpaque := []
  creatorFlag : Bool := false
  creator : MwLoginInfo := {}
  encrypt : MwEncryptOffer := {}
deriving DecidableEq

structure MwEncryptAccept where
  mode : UInt16 := 0
  item : Option MwEncryptItem := none
  extra : UInt16 := 0
  flag : Bool := false
deriving DecidableEq

structure MwMsgChannelAccept where
  service : UInt32 := 0
  protoType : UInt32 := 0
  protoVer : UInt32 := 0
  addtl : MwOpaque := []
  acceptorFlag : Bool := false
  acceptor : MwLoginInfo := {}
  encrypt : MwEncryptAccept := {}
deriving DecidableEq

structure MwMsgChannelSend where
  type : UInt16 := 0
  data : MwOpaque := []
deriving DecidableEq

structure MwMsgChannelDestroy where
  reason : UInt32 := 0
  data : MwOpaque := []
deriving DecidableEq

structure MwMsgAnnounce where
  senderPresent : Bool := false
  sender : MwLoginInfo := {}
  unknownA : UInt16 := 0
  mayReply : Bool := false
  text : MwString := none
  recipients : List MwString := []
deriving DecidableEq

/-- What follows the head of a message, by its type. -/
inductive MwMessageBody where
  | handshake (msg : MwMsgHandshake)
  | handshakeAck (msg : MwMsgHandshakeAck)
  | login (msg : MwMsgLogin)
  | loginAck (msg : MwMsgLoginAck)
  | loginRedirect (msg : MwMsgLoginRedirect)
  | loginContinue
  | channelCreate (msg : MwMsgChannelCreate)
  | channelDestroy (msg : MwMsgChannelDestroy)
  | channelSend (msg : MwMsgChannelSend)
  | channelAccept (msg : MwMsgChannelAccept)
  | setUserStatus (status : MwUserStatus)
  | setPrivacyList (privacy : MwPrivacyInfo)
  | senseService (service : UInt32)
  | admin (text : MwString)
  | announce (msg : MwMsgAnnounce)
deriving DecidableEq

def MwMessageBody.type : MwMessageBody → MwMessageType
  | .handshake _ => .handshake
  | .handshakeAck _ => .handshakeAck
  | .login _ => .login
  | .loginAck _ => .loginAck
  | .loginRedirect _ => .loginRedirect
  | .loginContinue => .loginContinue
  | .channelCreate _ => .channelCreate
  | .channelDestroy _ => .channelDestroy
  | .channelSend _ => .channelSend
  | .channelAccept _ => .channelAccept
  | .setUserStatus _ => .setUserStatus
  | .setPrivacyList _ => .setPrivacyList
  | .senseService _ => .senseService
  | .admin _ => .admin
  | .announce _ => .announce

structure MwMessage where
  head : MwMessageHead := {}
  body : MwMessageBody
deriving DecidableEq

def MwMessage.type (msg : MwMessage) : MwMessageType := msg.body.type

/-! ## Putting -/

/-- `mwMessageHead_put` -/
def mwMessageHeadPut (type : MwMessageType) (head : MwMessageHead) : List UInt8 :=
  guint16Put type.code ++
  (guint16Put head.options ++
  (guint32Put head.channel ++
  if head.hasOption optionHasAttribs then mwOpaquePut head.attribs else []))

/-- `HANDSHAKE_put` -/
def handshakePut (channel : UInt32) (msg : MwMsgHandshake) : List UInt8 :=
  guint16Put msg.major ++
  (guint16Put msg.minor ++
  (guint32Put channel ++
  (guint32Put msg.srvrcalcAddr ++
  (guint16Put msg.loginType ++
  (guint32Put msg.loclcalcAddr ++
  if 0x001e ≤ msg.major ∧ 0x001d ≤ msg.minor then
    guint16Put msg.unknownA ++ (guint32Put msg.unknownB ++ mwStringPut msg.localHost)
  else [])))))

/-- `HANDSHAKE_ACK_put` -/
def handshakeAckPut (msg : MwMsgHandshakeAck) : List UInt8 :=
  guint16Put msg.major ++
  (guint16Put msg.minor ++
  (guint32Put msg.srvrcalcAddr ++
  if 0x1e ≤ msg.major ∧ 0x18 < msg.minor then
    guint32Put msg.magic ++ mwOpaquePut msg.data
  else []))

/-- `LOGIN_put` -/
def loginPut (msg : MwMsgLogin) : List UInt8 :=
  guint16Put msg.loginType ++
  (mwStringPut msg.name ++
  (mwOpaquePut msg.authData ++
  (guint16Put msg.authType ++
  guint16Put 0x0000)))

/-- `LOGIN_REDIRECT_put` -/
def loginRedirectPut (msg : MwMsgLoginRedirect) : List UInt8 :=
  mwStringPut msg.host ++ mwStringPut msg.serverId

/-- The block `enc_offer_put` renders when it has items. -/
def encOfferBlock (enc : MwEncryptOffer) : List UInt8 :=
  guint32Put (UInt32.ofNat enc.items.length) ++
  (enc.items.flatMap mwEncryptItemPut ++
  (guint16Put enc.extra ++
  gbooleanPut enc.flag))

/-- `enc_offer_put` -/
def encOfferPut (enc : MwEncryptOffer) : List UInt8 :=
  guint16Put enc.mode ++
  if enc.items = [] then [] else mwOpaquePut (encOfferBlock enc)

/-- What closes a create or an accept message. -/
def channelTrailer : List UInt8 :=
  guint32Put 0x00 ++ (guint32Put 0x00 ++ guint16Put 0x07)

/-- `CHANNEL_CREATE_put` -/
def channelCreatePut (msg : MwMsgChannelCreate) : List UInt8 :=
  guint32Put msg.reserved ++
  (guint32Put msg.channel ++
  (mwIdBlockPut msg.target ++
  (guint32Put msg.service ++
  (guint32Put msg.protoType ++
  (guint32Put msg.protoVer ++
  (guint32Put msg.options ++
  (mwOpaquePut msg.addtl ++
  (gbooleanPut msg.creatorFlag ++
  ((if msg.creatorFlag then mwLoginInfoPut msg.creator else []) ++
  (encOfferPut msg.encrypt ++
  channelTrailer))))))))))

/-- The block `enc_accept_put` renders around the chosen item. -/
def encAcceptBlock (enc : MwEncryptAccept) (item : MwEncryptItem) : List UInt8 :=
  mwEncryptItemPut item ++ (guint16Put enc.extra ++ gbooleanPut enc.flag)

/-- `enc_accept_put` -/
def encAcceptPut (enc : MwEncryptAccept) : List UInt8 :=
  guint16Put enc.mode ++
  match enc.item with
  | none => []
  | some item => mwOpaquePut (encAcceptBlock enc item)

/-- `CHANNEL_ACCEPT_put` -/
def channelAcceptPut (msg : MwMsgChannelAccept) : List UInt8 :=
  guint32Put msg.service ++
  (guint32Put msg.protoType ++
  (guint32Put msg.protoVer ++
  (mwOpaquePut msg.addtl ++
  (gbooleanPut msg.acceptorFlag ++
  ((if msg.acceptorFlag then mwLoginInfoPut msg.acceptor else []) ++
  (encAcceptPut msg.encrypt ++
  channelTrailer))))))

/-- `CHANNEL_SEND_put` -/
def channelSendPut (msg : MwMsgChannelSend) : List UInt8 :=
  guint16Put msg.type ++ mwOpaquePut msg.data

/-- `CHANNEL_DESTROY_put` -/
def channelDestroyPut (msg : MwMsgChannelDestroy) : List UInt8 :=
  guint32Put msg.reason ++ mwOpaquePut msg.data

/-- `ANNOUNCE_put` -/
def announcePut (msg : MwMsgAnnounce) : List UInt8 :=
  gbooleanPut msg.senderPresent ++
  ((if msg.senderPresent then mwLoginInfoPut msg.sender else []) ++
  (guint16Put msg.unknownA ++
  (mwOpaquePut (gbooleanPut msg.mayReply ++ mwStringPut msg.text) ++
  (guint32Put (UInt32.ofNat msg.recipients.length) ++
  msg.recipients.flatMap mwStringPut))))

/-- `mwMessage_put`: login acks and admin messages have no put function. -/
def mwMessagePut (msg : MwMessage) : List UInt8 :=
  mwMessageHeadPut msg.type msg.head ++
  match msg.body with
  | .handshake m => handshakePut msg.head.channel m
  | .handshakeAck m => handshakeAckPut m
  | .login m => loginPut m
  | .loginRedirect m => loginRedirectPut m
  | .loginContinue => []
  | .channelCreate m => channelCreatePut m
  | .channelDestroy m => channelDestroyPut m
  | .channelSend m => channelSendPut m
  | .channelAccept m => channelAcceptPut m
  | .setUserStatus status => mwUserStatusPut status
  | .setPrivacyList privacy => mwPrivacyInfoPut privacy
  | .senseService service => guint32Put service
  | .announce m => announcePut m
  | .loginAck _ | .admin _ => []

/-! ## Getting -/

/-- What the unassigned local variables of the decoders hold. -/
structure Uninit where
  /-- `head` in `mwMessage_get`, less its cleared attributes -/
  headType : UInt16 := 0
  headOptions : UInt16 := 0
  headChannel : UInt32 := 0
  /-- `junk` in `LOGIN_ACK_get` -/
  junk : UInt16 := 0
  /-- `skip` in `enc_offer_get` and `enc_accept_get` -/
  skip : UInt32 := 0
  /-- `count` in `enc_offer_get` and `ANNOUNCE_get` -/
  count : UInt32 := 0

/-- `mwMessageHead_get`, into an unassigned head: the type code and the rest. -/
def mwMessageHeadGet (u : Uninit) : Get (UInt16 × MwMessageHead) := do
  let head : MwMessageHead := { options := u.headOptions, channel := u.headChannel }
  if ← mwGetBufferError then return (u.headType, head)
  let type ← guint16Get u.headType
  let head := { head with options := ← guint16Get head.options }
  let head := { head with channel := ← guint32Get head.channel }
  if head.hasOption optionHasAttribs then
    return (type, { head with attribs := ← mwOpaqueGet })
  else
    return (type, head)

/-- `HANDSHAKE_get`: it reads the channel of the head once more. -/
def handshakeGet (head : MwMessageHead) : Get MwMessage := do
  let msg : MwMsgHandshake := {}
  if ← mwGetBufferError then return ⟨head, .handshake msg⟩
  let msg := { msg with major := ← guint16Get msg.major }
  let msg := { msg with minor := ← guint16Get msg.minor }
  let head := { head with channel := ← guint32Get head.channel }
  let msg := { msg with srvrcalcAddr := ← guint32Get msg.srvrcalcAddr }
  let msg := { msg with loginType := ← guint16Get msg.loginType }
  let msg := { msg with loclcalcAddr := ← guint32Get msg.loclcalcAddr }
  if 0x001e ≤ msg.major ∧ 0x001d ≤ msg.minor then
    let msg := { msg with unknownA := ← guint16Get msg.unknownA }
    let msg := { msg with unknownB := ← guint32Get msg.unknownB }
    let msg := { msg with localHost := ← mwStringGet }
    return ⟨head, .handshake msg⟩
  else
    return ⟨head, .handshake msg⟩

/-- `HANDSHAKE_ACK_get` -/
def handshakeAckGet : Get MwMsgHandshakeAck := do
  let msg : MwMsgHandshakeAck := {}
  if ← mwGetBufferError then return msg
  let msg := { msg with major := ← guint16Get msg.major }
  let msg := { msg with minor := ← guint16Get msg.minor }
  let msg := { msg with srvrcalcAddr := ← guint32Get msg.srvrcalcAddr }
  if 0x1e ≤ msg.major ∧ 0x18 < msg.minor then
    let msg := { msg with magic := ← guint32Get msg.magic }
    return { msg with data := ← mwOpaqueGet }
  else
    return msg

/-- `LOGIN_get` -/
def loginGet : Get MwMsgLogin := do
  let msg : MwMsgLogin := {}
  if ← mwGetBufferError then return msg
  let msg := { msg with loginType := ← guint16Get msg.loginType }
  let msg := { msg with name := ← mwStringGet }
  let msg := { msg with authData := ← mwOpaqueGet }
  return { msg with authType := ← guint16Get msg.authType }

/-- `LOGIN_ACK_get` -/
def loginAckGet (u : Uninit) : Get MwMsgLoginAck := do
  let msg : MwMsgLoginAck := {}
  if ← mwGetBufferError then return msg
  let msg := { msg with login := ← mwLoginInfoGet msg.login }
  let _ ← guint16Get u.junk
  let msg := { msg with privacy := ← mwPrivacyInfoGet msg.privacy }
  return { msg with status := ← mwUserStatusGet msg.status }

/-- `LOGIN_REDIRECT_get` -/
def loginRedirectGet : Get MwMsgLoginRedirect := do
  let msg : MwMsgLoginRedirect := {}
  if ← mwGetBufferError then return msg
  let msg := { msg with host := ← mwStringGet }
  return { msg with serverId := ← mwStringGet }

/-- `while(count-- && (! mwGetBuffer_error(b)))` of `enc_offer_get` -/
def encryptItemsGet : Nat → List MwEncryptItem → Get (List MwEncryptItem)
  | 0, items => pure items
  | count + 1, items => do
      if ← mwGetBufferError then return items
      let ei ← mwEncryptItemGet {}
      encryptItemsGet count (items ++ [ei])

/-- `enc_offer_get`: the length word is read as `skip`, and only looked at. -/
def encOfferGet (u : Uninit) : Get MwEncryptOffer := do
  let enc : MwEncryptOffer := {}
  if ← mwGetBufferError then return enc
  let enc := { enc with mode := ← guint16Get enc.mode }
  let skip ← guint32Get u.skip
  if 7 ≤ skip then
    let count ← guint32Get u.count
    let enc := { enc with items := ← encryptItemsGet count.toNat enc.items }
    let enc := { enc with extra := ← guint16Get enc.extra }
    return { enc with flag := ← gbooleanGet enc.flag }
  else
    return enc

/-- `CHANNEL_CREATE_get` -/
def channelCreateGet (u : Uninit) : Get MwMsgChannelCreate := do
  let msg : MwMsgChannelCreate := {}
  if ← mwGetBufferError then return msg
  let msg := { msg with reserved := ← guint32Get msg.reserved }
  let msg := { msg with channel := ← guint32Get msg.channel }
  let msg := { msg with target := ← mwIdBlockGet msg.target }
  let msg := { msg with service := ← guint32Get msg.service }
  let msg := { msg with protoType := ← guint32Get msg.protoType }
  let msg := { msg with protoVer := ← guint32Get msg.protoVer }
  let msg := { msg with options := ← guint32Get msg.options }
  let msg := { msg with addtl := ← mwOpaqueGet }
  let msg := { msg with creatorFlag := ← gbooleanGet msg.creatorFlag }
  let creator ← if msg.creatorFlag then mwLoginInfoGet msg.creator else pure msg.creator
  let msg := { msg with creator := creator }
  return { msg with encrypt := ← encOfferGet u }

/-- `enc_accept_get` -/
def encAcceptGet (u : Uninit) : Get MwEncryptAccept := do
  let enc : MwEncryptAccept := {}
  if ← mwGetBufferError then return enc
  let enc := { enc with mode := ← guint16Get enc.mode }
  let skip ← guint32Get u.skip
  let item ← if 6 ≤ skip then some <$> mwEncryptItemGet {} else pure enc.item
  let enc := { enc with item := item }
  if 9 ≤ skip then
    let enc := { enc with extra := ← guint16Get enc.extra }
    return { enc with flag := ← gbooleanGet enc.flag }
  else
    return enc

/-- `CHANNEL_ACCEPT_get` -/
def channelAcceptGet (u : Uninit) : Get MwMsgChannelAccept := do
  let msg : MwMsgChannelAccept := {}
  if ← mwGetBufferError then return msg
  let msg := { msg with service := ← guint32Get msg.service }
  let msg := { msg with protoType := ← guint32Get msg.protoType }
  let msg := { msg with protoVer := ← guint32Get msg.protoVer }
  let msg := { msg with addtl := ← mwOpaqueGet }
  let msg := { msg with acceptorFlag := ← gbooleanGet msg.acceptorFlag }
  let acceptor ← if msg.acceptorFlag then mwLoginInfoGet msg.acceptor else pure msg.acceptor
  let msg := { msg with acceptor := acceptor }
  return { msg with encrypt := ← encAcceptGet u }

/-- `CHANNEL_SEND_get` -/
def channelSendGet : Get MwMsgChannelSend := do
  let msg : MwMsgChannelSend := {}
  if ← mwGetBufferError then return msg
  let msg := { msg with type := ← guint16Get msg.type }
  return { msg with data := ← mwOpaqueGet }

/-- `CHANNEL_DESTROY_get` -/
def channelDestroyGet : Get MwMsgChannelDestroy := do
  let msg : MwMsgChannelDestroy := {}
  if ← mwGetBufferError then return msg
  let msg := { msg with reason := ← guint32Get msg.reason }
  return { msg with data := ← mwOpaqueGet }

/-- `while(count--)` of `ANNOUNCE_get`, with no look at the error flag -/
def recipientsGet : Nat → List MwString → Get (List MwString)
  | 0, recipients => pure recipients
  | count + 1, recipients => do
      let r ← mwStringGet
      recipientsGet count (r :: recipients)

/-- `ANNOUNCE_get` -/
def announceGet (u : Uninit) : Get MwMsgAnnounce := do
  let msg : MwMsgAnnounce := {}
  let msg := { msg with senderPresent := ← gbooleanGet msg.senderPresent }
  let sender ← if msg.senderPresent then mwLoginInfoGet msg.sender else pure msg.sender
  let msg := { msg with sender := sender }
  let msg := { msg with unknownA := ← guint16Get msg.unknownA }
  let o ← mwOpaqueGet
  let (mayReply, gb) := gbooleanGet msg.mayReply (.wrapOpaque o)
  let (text, _) := mwStringGet gb
  let msg := { msg with mayReply := mayReply, text := text }
  let count ← guint32Get u.count
  return { msg with recipients := ← recipientsGet count.toNat msg.recipients }

/-- The `_get` function of each type, into a message with the given head. -/
def mwMessageBodyGet (u : Uninit) (head : MwMessageHead) : MwMessageType → Get MwMessage
  | .handshake => handshakeGet head
  | .handshakeAck => do return ⟨head, .handshakeAck (← handshakeAckGet)⟩
  | .login => do return ⟨head, .login (← loginGet)⟩
  | .loginRedirect => do return ⟨head, .loginRedirect (← loginRedirectGet)⟩
  | .loginContinue => return ⟨head, .loginContinue⟩
  | .loginAck => do return ⟨head, .loginAck (← loginAckGet u)⟩
  | .channelCreate => do return ⟨head, .channelCreate (← channelCreateGet u)⟩
  | .channelDestroy => do return ⟨head, .channelDestroy (← channelDestroyGet)⟩
  | .channelSend => do return ⟨head, .channelSend (← channelSendGet)⟩
  | .channelAccept => do return ⟨head, .channelAccept (← channelAcceptGet u)⟩
  | .setUserStatus => do return ⟨head, .setUserStatus (← mwUserStatusGet {})⟩
  | .setPrivacyList => do return ⟨head, .setPrivacyList (← mwPrivacyInfoGet {})⟩
  | .senseService => do return ⟨head, .senseService (← guint32Get 0)⟩
  | .admin => do return ⟨head, .admin (← mwStringGet)⟩
  | .announce => do return ⟨head, .announce (← announceGet u)⟩

/-- `mwMessage_get`: `none` is the `NULL` returned for a head that does not
parse or a type without a decoder. -/
def mwMessageGet (u : Uninit) : Get (Option MwMessage) := do
  let (type, head) ← mwMessageHeadGet u
  if ← mwGetBufferError then return none
  match MwMessageType.ofCode type with
  | some type => return some (← mwMessageBodyGet u head type)
  | none => return none

end Meanwhile
