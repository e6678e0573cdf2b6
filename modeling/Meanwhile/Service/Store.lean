-- SUMMARY: The storage service of srvc_store.c: load and save requests, sent when the service is up and answered in any order.
import Meanwhile.Service.World

/-!
# The storage service

A request is known by its address, as it is by its pointer in C. The addresses are
given out in order, so that they tell which request was made first.

`log` is not in the C structure. It records what the results about whole runs
speak of, the latest first: requests made, responses received, callbacks,
calls of `data_free`, and the ends of `stop` and `clear`.
-/

namespace Meanwhile

/-! ## Requests -/

/-- `enum storage_action` -/
inductive StorageAction where
  | load | loaded | save | saved
deriving DecidableEq, Repr

/-- The message type of an action -/
def StorageAction.code : StorageAction → UInt16
  | .load => 0x0004
  | .loaded => 0x0005
  | .save => 0x0006
  | .saved => 0x0007

/-- The action of a request that has been sent -/
def StorageAction.sent : StorageAction → StorageAction
  | .load => .loaded
  | .save => .saved
  | action => action

/-- `struct mwStorageUnit` -/
structure MwStorageUnit where
  key : UInt32
  data : MwOpaque := []
deriving DecidableEq

/-- `struct mwStorageReq`. Functions and their data are known by numbers. -/
structure MwStorageReq where
  addr : Nat
  id : UInt32
  resultCode : UInt32 := 0
  action : StorageAction
  item : MwStorageUnit
  cb : Option Nat
  data : Nat
  dataFree : Option Nat
deriving DecidableEq

/-- What is recorded -/
inductive StorageEvent where
  | issue (req : MwStorageReq)
  /-- The service is given a message while it has a channel. -/
  | recv (current : Option Nat) (chan : Nat) (type : UInt16) (data : MwOpaque)
  | callback (req : MwStorageReq)
  | free (req : MwStorageReq)
  | stop
  | clear
deriving DecidableEq

/-- `struct mwServiceStorage` -/
structure MwServiceStorage where
  pending : List MwStorageReq := []
  channel : Option Nat := none
  idCounter : UInt32 := 0
  /-- The address that the next request gets -/
  nextReq : Nat := 0
  log : List StorageEvent := []

/-- A message of the service, with the address of the request it is for -/
structure StorageMessage where
  req : Nat
  type : UInt16
  data : MwOpaque
deriving DecidableEq

abbrev StorageWorld := World MwServiceStorage StorageMessage (UInt16 × MwOpaque)

namespace Storage

/-- The request under an address, changed in place -/
def update (s : MwServiceStorage) (addr : Nat) (f : MwStorageReq → MwStorageReq) :
    MwServiceStorage :=
  { s with pending := s.pending.map fun req => if req.addr = addr then f req else req }

def record (s : MwServiceStorage) (e : StorageEvent) : MwServiceStorage :=
  { s with log := e :: s.log }

/-- The unit in a response, which only one to a load has. The count starts as
whatever was on the stack. -/
def itemGet (count : UInt32) (req : MwStorageReq) : Get MwStorageUnit :=
  if req.action = .loaded then do
    let count ← guint32Get count
    if count = 0 then return req.item
    let _ ← guint32Get 0
    let key ← guint32Get req.item.key
    return { key := key, data := ← mwOpaqueGet }
  else return req.item

/-- `request_get` -/
def requestGet (count : UInt32) (req : MwStorageReq) : Get MwStorageReq := do
  if ← mwGetBufferError then return req
  let _ ← guint32Get 0
  let resultCode ← guint32Get req.resultCode
  let item ← itemGet count req
  return { req with resultCode := resultCode, item := item }

/-- `request_put` -/
def requestPut (req : MwStorageReq) : List UInt8 :=
  guint32Put req.id ++ guint32Put 1 ++
    if req.action = .save then
      guint32Put (UInt32.ofNat (20 + req.item.data.length)) ++ guint32Put req.item.key ++
        mwOpaquePut req.item.data
    else guint32Put req.item.key

/-- The message that `request_send` composes -/
def requestMessage (req : MwStorageReq) : StorageMessage where
  req := req.addr
  type := req.action.code
  data := requestPut req

/-- `request_send` -/
def requestSend (w : StorageWorld) (chan : Option Nat) (req : MwStorageReq) :
    Int × StorageWorld :=
  match chan with
  | none => (-1, w)
  | some chan =>
      let (ret, w) := w.mwChannelSend chan (requestMessage req)
      if ret = 0 then
        (ret, { w with
          srvc := update w.srvc req.addr fun req => { req with action := req.action.sent } })
      else (ret, w)

/-- `request_find` -/
def requestFind (s : MwServiceStorage) (id : UInt32) : Option MwStorageReq :=
  s.pending.find? (·.id = id)

/-- `request_free` -/
def requestFree (s : MwServiceStorage) (req : MwStorageReq) : MwServiceStorage :=
  if req.dataFree.isSome then record s (.free req) else s

/-- `request_remove` -/
def requestRemove (s : MwServiceStorage) (req : MwStorageReq) : MwServiceStorage :=
  requestFree { s with pending := s.pending.filter (·.addr ≠ req.addr) } req

/-- `request_new`, with the action that its callers set at once -/
def requestNew (s : MwServiceStorage) (action : StorageAction) (item : MwStorageUnit)
    (cb : Option Nat) (data : Nat) (dataFree : Option Nat) : MwStorageReq × MwServiceStorage :=
  let req : MwStorageReq :=
    { addr := s.nextReq, id := s.idCounter + 1, action := action, item := item, cb := cb,
      data := data, dataFree := dataFree }
  (req, record { s with idCounter := s.idCounter + 1, nextReq := s.nextReq + 1 } (.issue req))

/-- A new request at the end of the list -/
def enlist (w : StorageWorld) (action : StorageAction) (item : MwStorageUnit) (cb : Option Nat)
    (data : Nat) (dataFree : Option Nat) : MwStorageReq × StorageWorld :=
  let (req, s) := requestNew w.srvc action item cb data dataFree
  (req, { w with srvc := { s with pending := s.pending ++ [req] } })

/-- A new request, which is sent if the service is up -/
def issue (w : StorageWorld) (action : StorageAction) (item : MwStorageUnit) (cb : Option Nat)
    (data : Nat) (dataFree : Option Nat) : StorageWorld :=
  let (req, w) := enlist w action item cb data dataFree
  if w.state = .started then (requestSend w w.srvc.channel req).2 else w

/-- `mwServiceStorage_load` -/
def mwServiceStorageLoad (w : StorageWorld) (item : MwStorageUnit) (cb : Option Nat) (data : Nat)
    (dataFree : Option Nat) : StorageWorld :=
  issue w .load item cb data dataFree

/-- `mwServiceStorage_save` -/
def mwServiceStorageSave (w : StorageWorld) (item : MwStorageUnit) (cb : Option Nat) (data : Nat)
    (dataFree : Option Nat) : StorageWorld :=
  issue w .save item cb data dataFree

/-! ## The client -/

/-- What the client asks of the service -/
inductive Call where
  | load (item : MwStorageUnit) (cb : Option Nat) (data : Nat) (dataFree : Option Nat)
  | save (item : MwStorageUnit) (cb : Option Nat) (data : Nat) (dataFree : Option Nat)

def runCall (w : StorageWorld) : Call → StorageWorld
  | .load item cb data dataFree => mwServiceStorageLoad w item cb data dataFree
  | .save item cb data dataFree => mwServiceStorageSave w item cb data dataFree

/-- The callbacks of requests, each as the calls it makes, which may depend on all
there is. A callback that stops the service is none, and a `data_free` only frees. -/
structure Client where
  call : MwStorageReq → StorageWorld → List Call
  /-- What is on the stack where `request_get` keeps its count -/
  stack : UInt32 := 0
  /-- What stands in memory behind a response -/
  beyond : StorageWorld → Nat → UInt8 := fun _ _ => 0

/-! ## Functions of the service -/

/-- `request_trigger` -/
def requestTrigger (client : Client) (w : StorageWorld) (req : MwStorageReq) : StorageWorld :=
  if req.cb.isSome then
    let w : StorageWorld := { w with srvc := record w.srvc (.callback req) }
    (client.call req w).foldl runCall w
  else w

/-- `start` -/
def start (w : StorageWorld) : StorageWorld :=
  match w.createChannel with
  | (some chan, w) => { w with srvc := { w.srvc with channel := some chan } }
  | (none, w) => w.mwServiceStopped

/-- The requests of the service freed one by one, and the counter reset -/
def freePending (s : MwServiceStorage) : MwServiceStorage :=
  { s.pending.foldl requestFree s with pending := [], idCounter := 0 }

/-- The channel of the service destroyed, if it has one -/
def closeChannel (w : StorageWorld) : StorageWorld :=
  match w.srvc.channel with
  | some chan =>
      let w := w.mwChannelDestroy chan 0
      { w with srvc := { w.srvc with channel := none } }
  | none => w

/-- `stop` -/
def stop (w : StorageWorld) : StorageWorld :=
  let w := closeChannel w
  World.mwServiceStopped { w with srvc := record (freePending w.srvc) .stop }

/-- The loop over requests in `recv_channelAccept` -/
def sendPending (chan : Nat) (reqs : List MwStorageReq) (w : StorageWorld) : StorageWorld :=
  reqs.foldl (fun w req =>
    if req.action = .save ∨ req.action = .load then (requestSend w (some chan) req).2 else w) w

/-- `recv_channelAccept` -/
def recvChannelAccept (chan : Nat) (w : StorageWorld) : StorageWorld :=
  if w.srvc.channel = some chan then (sendPending chan w.srvc.pending w).mwServiceStarted else w

/-- The end of `recv`: the response is read into its request, which is then done with. -/
def answer (client : Client) (w : StorageWorld) (req : MwStorageReq) (data : MwOpaque) :
    StorageWorld :=
  let (req, b) := requestGet client.stack req (.wrapOpaque data)
  let w : StorageWorld := { w with srvc := update w.srvc req.addr fun _ => req }
  let w := if b.error then w else requestTrigger client w req
  { w with srvc := requestRemove w.srvc req }

/-- `recv`. A response is for the request with its id, if it has the type for it. The id of a
response that is too short for one is what `guint32_peek` makes of it. -/
def recv (client : Client) (chan : Nat) (msg : UInt16 × MwOpaque) (w : StorageWorld) :
    StorageWorld :=
  let w : StorageWorld :=
    { w with srvc := record w.srvc (.recv w.srvc.channel chan msg.1 msg.2) }
  if w.srvc.channel = some chan then
    match requestFind w.srvc (guint32Peek (.wrapOpaque msg.2) (client.beyond w)) with
    | none => w
    | some req => if req.action.code = msg.1 then answer client w req msg.2 else w
  else w

/-- `clear` -/
def clear (w : StorageWorld) : StorageWorld :=
  { w with srvc := record (freePending w.srvc) .clear }

/-- `recv_channelDestroy` -/
def recvChannelDestroy (_chan : Nat) (w : StorageWorld) : StorageWorld :=
  let w : StorageWorld := { w with srvc := { w.srvc with channel := none } }
  (w.mwServiceStop stop).mwSessionSenseService

/-- The functions of the service -/
def fns (client : Client) : ServiceFns MwServiceStorage StorageMessage (UInt16 × MwOpaque) where
  start := start
  stop := stop
  recvAccept := recvChannelAccept
  recvDestroy := fun chan _ => recvChannelDestroy chan
  recv := recv client
  clear := clear

/-! ## Runs -/

/-- What can happen to the service -/
inductive Step where
  | call (call : Call)
  | input (input : Input (UInt16 × MwOpaque))

def step (client : Client) (w : StorageWorld) : Step → StorageWorld
  | .call call => if w.freed then w else runCall w call
  | .input input => w.input (fns client) input

def run (client : Client) (steps : List Step) (w : StorageWorld) : StorageWorld :=
  steps.foldl (step client) w

/-- `mwServiceStorage_new`, with what `io_write` is going to return -/
def mwServiceStorageNew (ret : Nat → Int) : StorageWorld := { srvc := {}, ret := ret }

end Storage

end Meanwhile
