-- SUMMARY: Channels opening and receiving: accept, the queues, and the channel messages of the server.
import Meanwhile.Service

/-!
# Opening and receiving

The part of channel.c that calls into services. A service may do anything to the
channel it is called for, so these functions look through the pointer again
after each call, where the C code does.
-/

namespace Meanwhile

variable (h : Hooks)

/-! ## Queues -/

/-- The data of a received message, decrypted if it says so. Without a cipher
`mwCipherInstance_decrypt` leaves it as it is. -/
def receivedData (c : MwChannel) (m : ChannelMessage) :
    Option (Option MwCipherInstance × MwOpaque) :=
  if m.head.hasOption optionEncrypt then
    match c.cipher with
    | some ci => do
        let (ci, data) ← mwCipherInstanceDecrypt m.msg.data ci
        return (some ci, data)
    | none => some (none, m.msg.data)
  else some (c.cipher, m.msg.data)

/-- `channel_recv` -/
def channelRecv (chan : ChanRef) (m : ChannelMessage) : Session Unit := do
  match ← deref chan with
  | none => return
  | some c =>
      let srvc := (← get).service? c.service
      match receivedData c m with
      | none => fault
      | some (ci, data) =>
          updateChannel chan fun c => { c with msgRecv := c.msgRecv + 1, cipher := ci }
          mwServiceRecv h srvc chan m.msg.type data

/-- The first loop of `flush_channel` -/
def flushIncoming (chan : ChanRef) : List ChannelMessage → Session Unit
  | [] => pure ()
  | m :: l => do
      channelRecv h chan m
      flushIncoming chan l

/-- The second loop of `flush_channel`, which walks a list that belongs to the
channel. -/
def flushOutgoing (chan : ChanRef) : List ChannelMessage → Session Unit
  | [] => pure ()
  | m :: l => do
      match ← deref chan with
      | none => return
      | some _ =>
          let _ ← sendFor h chan m.toMessage
          flushOutgoing chan l

/-- `flush_channel` -/
def flushChannel (chan : ChanRef) : Session Unit := do
  match ← deref chan with
  | none => return
  | some c =>
      flushIncoming h chan c.incomingQueue
      updateChannel chan fun c => { c with incomingQueue := [] }
      match ← deref chan with
      | none => return
      | some c =>
          flushOutgoing h chan c.outgoingQueue
          updateChannel chan fun c => { c with outgoingQueue := [] }

/-- `channel_open` -/
def channelOpen (chan : ChanRef) : Session Unit := do
  setChannelState chan .opened
  flushChannel h chan

/-- `mwChannel_recv` -/
def mwChannelRecv (chan : ChanRef) (m : ChannelMessage) : Session Unit := do
  match ← deref chan with
  | none => return
  | some c =>
      if c.state = .opened then channelRecv h chan m
      else updateChannel chan fun c => { c with incomingQueue := c.incomingQueue ++ [m] }

/-! ## Accepting -/

/-- The cipher that `mwChannel_accept` picks when nobody has selected one: what
the policy names, else the last of the supported ones. -/
def autoSelect (c : MwChannel) : Option MwCipherInstance :=
  if c.offeredPolicy = encryptNone then none
  else if c.offeredPolicy = encryptRc2_40 then c.supported? (MwCipherType.code .rc2_40)
  else if c.offeredPolicy = encryptRc2_128 then c.supported? (MwCipherType.code .rc2_128)
  else (c.supported.getD []).getLast?

/-- `mwCipherInstance_accept` of the cipher of a channel: the item to send. -/
def acceptCipher (chan : ChanRef) : Session (Option MwEncryptItem) := do
  match ← deref chan with
  | none => return none
  | some c =>
      match c.cipher with
      | none => return none
      | some ci =>
          match (← get).cipher? ci.type.code >>= fun cipher =>
              mwCipherInstanceAccept c.user cipher ci with
          | some (ci, item) =>
              updateChannel chan fun c => { c with cipher := some ci }
              return some item
          | none =>
              fault
              return none

/-- The message of `mwChannel_accept` -/
def acceptMessage (id : UInt32) (c : MwChannel) (item : Option MwEncryptItem) : MwMessage where
  head := { channel := id }
  body := .channelAccept
    { service := c.service
      protoType := c.protoType
      protoVer := c.protoVer
      addtl := c.addtlAccept
      encrypt := { mode := c.policy, item := item, extra := c.offeredPolicy } }

/-- The end of `mwChannel_accept`, once a cipher has been decided on. -/
def sendAccept (chan : ChanRef) : Session Int := do
  let item ← acceptCipher chan
  match ← deref chan with
  | none => return -1
  | some c =>
      let ret ← sendFor h chan (acceptMessage chan.id c item)
      if ret ≠ 0 then setChannelState chan .error else channelOpen h chan
      return ret

/-- `mwChannel_accept` -/
def mwChannelAccept (chan : ChanRef) : Session Int := do
  match ← deref chan with
  | none => return -1
  | some c =>
      if mwChannelIdIsOutgoing chan.id ∨ c.state ≠ .wait then return -1
      if c.cipher.isNone then mwChannelSelectCipherInstance chan (autoSelect c)
      sendAccept h chan

/-! ## Messages of the server -/

/-- One turn of the loop over the offered items in `mwChannel_recvCreate` -/
def offeredCipher (chan : ChanRef) (item : MwEncryptItem) : Session Unit := do
  match (← get).cipher? item.id with
  | none => return
  | some cipher =>
      match ← newInstance cipher with
      | none => return
      | some (cipher, ci) =>
          match mwCipherInstanceOffered item cipher ci with
          | none => fault
          | some ci => mwChannelAddSupportedCipherInstance chan ci

/-- `mwChannel_recvCreate` -/
def mwChannelRecvCreate (chan : ChanRef) (msg : MwMsgChannelCreate) : Session Unit := do
  if mwChannelIdIsOutgoing chan.id then
    discard (mwChannelDestroy h chan errRequestInvalid [])
  else
    updateChannel chan fun c => { c with offeredPolicy := msg.encrypt.mode }
    msg.encrypt.items.forM (offeredCipher chan)
    updateChannel chan fun c =>
      { c with
        user := mwLoginInfoClone c.user msg.creator
        service := msg.service
        protoType := msg.protoType
        protoVer := msg.protoVer }
    match (← get).service? msg.service with
    | some srvc => mwServiceRecvCreate h srvc chan msg
    | none => discard (mwChannelDestroy h chan errServiceNoSupport [])

/-- The selection in `mwChannel_recvAccept`: whether the channel goes on. -/
def acceptedCipher (chan : ChanRef) (enc : MwEncryptAccept) : Session Bool := do
  match ← deref chan with
  | none => return false
  | some c =>
      match enc.item with
      | none =>
          mwChannelSelectCipherInstance chan none
          return true
      | some item =>
          if enc.mode = 0 then
            mwChannelSelectCipherInstance chan none
            return true
          match c.supported? item.id with
          | none => return false
          | some ci =>
              match (← get).cipher? ci.type.code >>= fun cipher =>
                  mwCipherInstanceAccepted c.user item cipher ci with
              | none =>
                  fault
                  return false
              | some ci =>
                  mwChannelSelectCipherInstance chan (some ci)
                  return true

/-- `mwChannel_recvAccept` -/
def mwChannelRecvAccept (chan : ChanRef) (msg : MwMsgChannelAccept) : Session Unit := do
  match ← deref chan with
  | none => return
  | some c =>
      if mwChannelIdIsIncoming chan.id ∨ c.state ≠ .wait then
        discard (mwChannelDestroy h chan errRequestInvalid [])
        return
      updateChannel chan fun c => { c with user := mwLoginInfoClone c.user msg.acceptor }
      match (← get).service? c.service with
      | none => discard (mwChannelDestroy h chan errServiceNoSupport [])
      | some srvc =>
          updateChannel chan fun c => { c with policy := msg.encrypt.mode }
          if ← acceptedCipher chan msg.encrypt then
            setChannelState chan .opened
            mwServiceRecvAccept h srvc chan msg
            match ← deref chan with
            | none => return
            | some c => if c.state = .opened then channelOpen h chan else return
          else
            discard (mwChannelDestroy h chan errRequestInvalid [])

/-- `mwChannel_recvDestroy` -/
def mwChannelRecvDestroy (chan : ChanRef) (msg : MwMsgChannelDestroy) : Session Unit := do
  match ← deref chan with
  | none => return
  | some c =>
      setChannelState chan (if msg.reason ≠ 0 then .error else .destroy)
      match (← get).service? c.service with
      | some srvc => mwServiceRecvDestroy h srvc chan msg
      | none => pure ()
      match ← deref chan with
      | none => return
      | some _ => modify (·.setChannel chan.id none)

end Meanwhile
