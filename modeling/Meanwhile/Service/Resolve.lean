-- SUMMARY: The resolve service of srvc_resolve.c: searches in a table by id, answered, cancelled or freed with the table.
import Meanwhile.Service.World

/-!
# The resolve service

A search is known by its address, as it is by its pointer in C; its id may be given
again when the counter has gone round. The table of searches is there while the
service has a channel. It is a list with at most one search for each id.

`log` is not in the C structure. It records, the latest first, what the results
about whole runs speak of.
-/

namespace Meanwhile

/-! ## Data -/

/-- `SEARCH_ERROR` -/
def searchError : UInt32 := 0

/-- `RESOLVE_ACTION` -/
def resolveAction : UInt16 := 2

/-- `struct mwResolveMatch` -/
structure MwResolveMatch where
  id : MwString
  name : MwString
  desc : MwString
  type : UInt32
deriving DecidableEq

/-- `struct mwResolveResult` -/
structure MwResolveResult where
  code : UInt32
  name : MwString
  matches_ : List MwResolveMatch
deriving DecidableEq

/-- `struct mw_search`. Functions and their data are known by numbers. -/
structure MwSearch where
  addr : Nat
  id : UInt32
  handler : Nat
  data : Nat
  cleanup : Option Nat
deriving DecidableEq

/-- What is recorded -/
inductive ResolveEvent where
  /-- `mwServiceResolve_resolve` returns the id of a search. -/
  | issue (search : MwSearch)
  /-- `mwServiceResolve_cancelResolve` returns. -/
  | cancel (id : UInt32)
  /-- The service is given a message while it has a channel. -/
  | recv (current : Option Nat) (chan : Nat) (type : UInt16) (data : MwOpaque)
  | handler (search : MwSearch) (code : UInt32) (results : List MwResolveResult)
  | cleanup (search : MwSearch)
  | stop
  | clear
deriving DecidableEq

/-- `struct mwServiceResolve` -/
structure MwServiceResolve where
  channel : Option Nat := none
  searches : Option (List MwSearch) := none
  counter : UInt32 := 0
  /-- The address that the next search gets -/
  nextSearch : Nat := 0
  log : List ResolveEvent := []

abbrev ResolveWorld := World MwServiceResolve MwOpaque (UInt16 × MwOpaque)

namespace Resolve

def record (s : MwServiceResolve) (e : ResolveEvent) : MwServiceResolve :=
  { s with log := e :: s.log }

/-! ## Searches -/

/-- `search_new`. The loop goes round once more if the counter is at `SEARCH_ERROR`. -/
def searchNew (s : MwServiceResolve) (handler data : Nat) (cleanup : Option Nat) :
    MwSearch × MwServiceResolve :=
  let id := if s.counter = searchError then s.counter + 1 else s.counter
  ({ addr := s.nextSearch, id := id, handler := handler, data := data, cleanup := cleanup },
    { s with counter := id + 1, nextSearch := s.nextSearch + 1 })

/-- `search_free` -/
def searchFree (s : MwServiceResolve) (search : MwSearch) : MwServiceResolve :=
  if search.cleanup.isSome then record s (.cleanup search) else s

/-- The searches of the table that meet `p` are taken out and freed. -/
def removeWhere (p : MwSearch → Bool) (s : MwServiceResolve) : MwServiceResolve :=
  match s.searches with
  | none => s
  | some searches =>
      (searches.filter p).foldl searchFree { s with searches := some (searches.filter (!p ·)) }

/-- `g_hash_table_remove` -/
def remove (id : UInt32) (s : MwServiceResolve) : MwServiceResolve := removeWhere (·.id = id) s

/-- `g_hash_table_insert`. A search that was there under the id is freed. -/
def insert (search : MwSearch) (s : MwServiceResolve) : MwServiceResolve :=
  let s := removeWhere (·.id = search.id) s
  { s with searches := s.searches.map (· ++ [search]) }

/-- `g_hash_table_destroy`, and the pointer to the table set to `NULL` -/
def destroyTable (s : MwServiceResolve) : MwServiceResolve :=
  { removeWhere (fun _ => true) s with searches := none }

/-- The message that `mwServiceResolve_resolve` composes -/
def resolvePut (id : UInt32) (queries : List MwString) (flags : UInt32) : MwOpaque :=
  guint32Put 0 ++ guint32Put id ++ guint32Put (UInt32.ofNat queries.length) ++
    queries.flatMap mwStringPut ++ guint32Put flags

/-- `mwServiceResolve_resolve`. The count of queries is a signed word, and a channel
that is `NULL` is an error. -/
def mwServiceResolveResolve (w : ResolveWorld) (queries : List MwString) (flags : UInt32)
    (handler data : Nat) (cleanup : Option Nat) : UInt32 × ResolveWorld :=
  if (UInt32.ofNat queries.length).toInt32 ≤ 0 then (searchError, w)
  else
    let (search, s) := searchNew w.srvc handler data cleanup
    let w : ResolveWorld := { w with srvc := s }
    let (ret, w) : Int × ResolveWorld :=
      match w.srvc.channel with
      | none => (-1, w)
      | some chan => w.mwChannelSend chan (resolvePut search.id queries flags)
    if ret ≠ 0 then (searchError, { w with srvc := searchFree w.srvc search })
    else (search.id, { w with srvc := record (insert search w.srvc) (.issue search) })

/-- `mwServiceResolve_cancelResolve` -/
def mwServiceResolveCancelResolve (w : ResolveWorld) (id : UInt32) : ResolveWorld :=
  { w with srvc := record (remove id w.srvc) (.cancel id) }

/-! ## The client -/

/-- What the client asks of the service -/
inductive Call where
  | resolve (queries : List MwString) (flags : UInt32) (handler data : Nat) (cleanup : Option Nat)
  | cancel (id : UInt32)

def runCall (w : ResolveWorld) : Call → ResolveWorld
  | .resolve queries flags handler data cleanup =>
      (mwServiceResolveResolve w queries flags handler data cleanup).2
  | .cancel id => mwServiceResolveCancelResolve w id

/-- The handlers of searches, each as the calls it makes, which may depend on all there
is. A handler that stops the service is none, and a cleanup only frees. -/
structure Client where
  call : MwSearch → UInt32 → List MwResolveResult → ResolveWorld → List Call
  /-- What is on the stack where `load_results` keeps its count of matches, by how many
  results are still to come after it -/
  stack : Nat → UInt32 := fun _ => 0

/-! ## Functions of the service -/

/-- `start` -/
def start (w : ResolveWorld) : ResolveWorld :=
  match w.createChannel with
  | (some chan, w) => { w with srvc := { w.srvc with channel := some chan, searches := some [] } }
  | (none, w) => w.mwServiceStopped

/-- `stop` -/
def stop (w : ResolveWorld) : ResolveWorld :=
  let w : ResolveWorld :=
    match w.srvc.channel with
    | some chan =>
        let w := w.mwChannelDestroy chan 0
        { w with srvc := { w.srvc with channel := none } }
    | none => w
  World.mwServiceStopped { w with srvc := record (destroyTable w.srvc) .stop }

/-- `clear` -/
def clear (w : ResolveWorld) : ResolveWorld :=
  { w with srvc := record (destroyTable w.srvc) .clear }

/-- `recv_accept` -/
def recvAccept (chan : Nat) (w : ResolveWorld) : ResolveWorld :=
  if w.srvc.channel = some chan then w.mwServiceStarted else w

/-- `recv_destroy` -/
def recvDestroy (chan : Nat) (w : ResolveWorld) : ResolveWorld :=
  if w.srvc.channel = some chan then
    let w : ResolveWorld := { w with srvc := { w.srvc with channel := none } }
    (w.mwServiceStop stop).mwSessionSenseService
  else w

/-- `load_matches` -/
def loadMatches : Nat → Get (List MwResolveMatch)
  | 0 => return []
  | count + 1 => do
      let id ← mwStringGet
      let name ← mwStringGet
      let desc ← mwStringGet
      let type ← guint32Get 0
      let rest ← loadMatches count
      return { id := id, name := name, desc := desc, type := type } :: rest

/-- `load_results`, with what the count of matches holds before it is read -/
def loadResults (stack : Nat → UInt32) : Nat → Get (List MwResolveResult)
  | 0 => return []
  | count + 1 => do
      let _ ← guint32Get 0
      let code ← guint32Get 0
      let name ← mwStringGet
      let matches_ ← guint32Get (stack count)
      let found ← loadMatches matches_.toNat
      let rest ← loadResults stack count
      return { code := code, name := name, matches_ := found } :: rest

/-- The head of a response: the id, the code and the count of results -/
def headGet : Get (UInt32 × UInt32 × UInt32) := do
  let _ ← guint32Get 0
  let id ← guint32Get 0
  let code ← guint32Get 0
  let count ← guint32Get 0
  return (id, code, count)

/-- A call of the handler of a search -/
def trigger (client : Client) (w : ResolveWorld) (search : MwSearch) (code : UInt32)
    (results : List MwResolveResult) : ResolveWorld :=
  let w : ResolveWorld := { w with srvc := record w.srvc (.handler search code results) }
  (client.call search code results w).foldl runCall w

/-- `recv` on the channel of the service, for a `RESOLVE_ACTION` -/
def recvResponse (client : Client) (data : MwOpaque) (w : ResolveWorld) : ResolveWorld :=
  let ((id, code, count), b) := headGet (.wrapOpaque data)
  if b.error then w
  else
    match w.srvc.searches.bind (·.find? (·.id = id)) with
    | none => w
    | some search =>
        let (results, b) := loadResults client.stack count.toNat b
        let w := if b.error then w else trigger client w search code results
        { w with srvc := remove id w.srvc }

/-- `recv` -/
def recv (client : Client) (chan : Nat) (msg : UInt16 × MwOpaque) (w : ResolveWorld) :
    ResolveWorld :=
  let w : ResolveWorld := { w with srvc := record w.srvc (.recv w.srvc.channel chan msg.1 msg.2) }
  if w.srvc.channel = some chan ∧ msg.1 = resolveAction then recvResponse client msg.2 w else w

/-- The functions of the service -/
def fns (client : Client) : ServiceFns MwServiceResolve MwOpaque (UInt16 × MwOpaque) where
  start := start
  stop := stop
  recvAccept := recvAccept
  recvDestroy := fun chan _ => recvDestroy chan
  recv := recv client
  clear := clear

/-! ## Runs -/

/-- What can happen to the service -/
inductive Step where
  | call (call : Call)
  | input (input : Input (UInt16 × MwOpaque))

def step (client : Client) (w : ResolveWorld) : Step → ResolveWorld
  | .call call => if w.freed then w else runCall w call
  | .input input => w.input (fns client) input

def run (client : Client) (steps : List Step) (w : ResolveWorld) : ResolveWorld :=
  steps.foldl (step client) w

/-- `mwServiceResolve_new`, with what `io_write` is going to return -/
def mwServiceResolveNew (ret : Nat → Int) : ResolveWorld := { srvc := {}, ret := ret }

end Resolve

end Meanwhile
