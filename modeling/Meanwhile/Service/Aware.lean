-- SUMMARY: The aware service of srvc_aware.c: entries shared by the lists of a client, what the server says of them, and what it is told.
import Meanwhile.Service.World
import Meanwhile.Lib.HashTable
import Meanwhile.Common.Types

/-!
# The aware service

Entries and lists are known by their addresses. An entry is in the table of the
service, and in the table of each list that has it, under the id that it holds.
Tables are walked in the order in which they were filled.

`AwareStack` is what the local variables of a handler hold before anything is read
into them. `crashed` is set where the code would follow a pointer that is `NULL` or
to something that is gone. Functions of the client return without calling the service,
and a client that leaves out functions of its handlers is told less.
-/

namespace Meanwhile.Aware

open HashTable

/-! ## Data -/

/-- `struct mwAwareIdBlock` -/
structure MwAwareIdBlock where
  type : UInt16 := 0
  user : MwString := none
  community : MwString := none
deriving DecidableEq

/-- `struct mwAwareSnapshot` -/
structure MwAwareSnapshot where
  id : MwAwareIdBlock := {}
  group : MwString := none
  online : Bool := false
  altId : MwString := none
  status : MwUserStatus := {}
  name : MwString := none
deriving DecidableEq

/-- `mwAware_GROUP` -/
def mwAwareGroup : UInt16 := 0x0003

/-- `struct aware_entry`, with the attributes by their keys -/
structure AwareEntry where
  aware : MwAwareSnapshot
  membership : List Nat := []
  attribs : UInt32 → Option MwOpaque := fun _ => none

/-- `struct mwAwareList`. Tables are `NULL` before they are first used. -/
structure MwAwareList where
  entries : Option Table := none
  attribs : Option (List UInt32) := none

/-- `struct attrib_entry` -/
structure AttribEntry where
  key : UInt32
  membership : List Nat := []
deriving DecidableEq

/-- The messages that the service sends -/
inductive AwareMsg where
  | add (ids : List MwAwareIdBlock)
  | remove (ids : List MwAwareIdBlock)
  | watch (keys : List UInt32)
deriving DecidableEq

/-- Calls of the functions of `struct mwAwareListHandler` -/
inductive AwareEvent where
  | onAware (list : Nat) (idb : MwAwareSnapshot)
  | onAttrib (list : Nat) (idb : MwAwareIdBlock) (key : UInt32) (data : MwOpaque)
  | clear (list : Nat)
deriving DecidableEq

/-- `struct mwServiceAware`, with the entries and lists that there are -/
structure MwServiceAware where
  entries : Table := []
  attribs : List AttribEntry := []
  lists : List Nat := []
  channel : Option Nat := none
  entry : Nat → Option AwareEntry := fun _ => none
  nextEntry : Nat := 0
  list : Nat → Option MwAwareList := fun _ => none
  nextList : Nat := 0
  crashed : Bool := false
  /-- How many messages have been handled -/
  handled : Nat := 0
  /-- What the client was told, the latest first -/
  log : List AwareEvent := []

abbrev Payload := UInt16 × MwOpaque

abbrev AwareWorld := World MwServiceAware AwareMsg Payload

/-- The local variables that are read from the buffer without a value of their own -/
structure AwareStack where
  count : UInt32 := 0
  endOfBlock : UInt32 := 0
  setIdb : MwAwareIdBlock := {}
  setCheck : UInt32 := 0
  setKey : UInt32 := 0
  unsetIdb : MwAwareIdBlock := {}

/-! ## Id blocks and snapshots -/

/-- `mwAwareIdBlock_get` -/
def mwAwareIdBlockGet (idb : MwAwareIdBlock) : Get MwAwareIdBlock := do
  if ← mwGetBufferError then return idb
  let type ← guint16Get idb.type
  let user ← mwStringGet
  let community ← mwStringGet
  return { type := type, user := user, community := community }

/-- `mwAwareSnapshot_get` into a structure that has been cleared -/
def mwAwareSnapshotGet (endOfBlock : UInt32) : Get MwAwareSnapshot := do
  let endOfBlock ← guint32Get endOfBlock
  let id ← mwAwareIdBlockGet {}
  let group ← mwStringGet
  let online ← gbooleanGet false
  let altId ← if online then mwStringGet else pure none
  let status ← if online then mwUserStatusGet {} else pure {}
  let name ← if online then mwStringGet else pure none
  let b ← get
  if b.ptr < endOfBlock.toNat then mwGetBufferAdvance (endOfBlock.toNat - b.ptr)
  return { id := id, group := group, online := online, altId := altId, status := status, name := name }

/-- `mwAwareSnapshot_clone` into a structure that has been cleared -/
def mwAwareSnapshotClone (idb : MwAwareSnapshot) : MwAwareSnapshot :=
  if idb.online then idb else { id := idb.id }

/-- `g_str_hash`: characters are signed. -/
def gStrHash (s : CString) : UInt32 :=
  s.val.foldl (fun h c => h * 33 + (if c < 128 then c.toUInt32 else c.toUInt32 - 256)) 5381

/-- `mwAwareIdBlock_hash`, for a user that is not `NULL` -/
def mwAwareIdBlockHash (id : MwAwareIdBlock) : UInt32 :=
  match id.user with
  | none => 0
  | some user => gStrHash user

/-! ## Tables -/

/-- `ENTRY_KEY` -/
def entryKey (s : MwServiceAware) (addr : Nat) : Option MwAwareIdBlock :=
  (s.entry addr).map (·.aware.id)

def crash (s : MwServiceAware) : MwServiceAware := { s with crashed := true }

def record (s : MwServiceAware) (e : AwareEvent) : MwServiceAware := { s with log := e :: s.log }

def setEntry (s : MwServiceAware) (addr : Nat) (entry : Option AwareEntry) : MwServiceAware :=
  { s with entry := Function.update s.entry addr entry }

def setList (s : MwServiceAware) (l : Nat) (list : Option MwAwareList) : MwServiceAware :=
  { s with list := Function.update s.list l list }

/-- `g_hash_table_lookup` in a table of entries -/
def find (s : MwServiceAware) (t : Table) (id : MwAwareIdBlock) : Option Nat :=
  lookup (entryKey s) (mwAwareIdBlockHash id) id t

/-- `aware_find`. A user that is `NULL` has no hash. -/
def awareFind (s : MwServiceAware) (id : MwAwareIdBlock) : Option Nat × MwServiceAware :=
  match id.user with
  | none => (none, crash s)
  | some _ => (find s s.entries id, s)

/-- `list_aware_find` in the entries of a list -/
def listAwareFind (s : MwServiceAware) (list : MwAwareList) (id : MwAwareIdBlock) : Option Nat :=
  list.entries.bind (find s · id)

/-! ## Sending -/

def send (w : AwareWorld) (msg : AwareMsg) : AwareWorld :=
  match w.srvc.channel with
  | none => w
  | some chan => (w.mwChannelSend chan msg).2

/-- `send_add` -/
def sendAdd (w : AwareWorld) (ids : List MwAwareIdBlock) : AwareWorld := send w (.add ids)

/-- `send_rem` -/
def sendRem (w : AwareWorld) (ids : List MwAwareIdBlock) : AwareWorld := send w (.remove ids)

/-- `send_attrib_list` -/
def sendAttribList (w : AwareWorld) : AwareWorld := send w (.watch (w.srvc.attribs.map (·.key)))

/-- An entry without members -/
def dead (s : MwServiceAware) (n : Node) : Bool :=
  match s.entry n.addr with
  | none => false
  | some entry => entry.membership.isEmpty

/-- `remove_unused` -/
def removeUnused (w : AwareWorld) : AwareWorld :=
  let gone := w.srvc.entries.filter (dead w.srvc)
  let w : AwareWorld :=
    { w with srvc := { w.srvc with entries := w.srvc.entries.filter (! dead w.srvc ·) } }
  if gone.isEmpty then w
  else
    let ids := gone.filterMap fun n => entryKey w.srvc n.addr
    let w := if w.isLive then sendRem w ids else w
    { w with srvc := gone.foldl (fun s n => setEntry s n.addr none) w.srvc }

/-- `remove_unused_attrib` -/
def removeUnusedAttrib (w : AwareWorld) : AwareWorld :=
  let w : AwareWorld :=
    { w with srvc := { w.srvc with attribs := w.srvc.attribs.filter (! ·.membership.isEmpty) } }
  if w.isLive then sendAttribList w else w

/-! ## Lists -/

/-- `mwAwareList_new` -/
def mwAwareListNew (s : MwServiceAware) : MwServiceAware :=
  { setList s s.nextList (some {}) with
    lists := s.nextList :: s.lists, nextList := s.nextList + 1 }

/-- A new entry of the service -/
def newEntry (id : MwAwareIdBlock) (s : MwServiceAware) : MwServiceAware :=
  { setEntry s s.nextEntry (some { aware := { id := id } }) with
    entries := insert (mwAwareIdBlockHash id) s.nextEntry s.entries
    nextEntry := s.nextEntry + 1 }

/-- The entry of the service for an id, which is made if there is none -/
def entryFor (id : MwAwareIdBlock) (s : MwServiceAware) : Nat × MwServiceAware :=
  match find s s.entries id with
  | some addr => (addr, s)
  | none => (s.nextEntry, newEntry id s)

/-- An entry gets a list as a member, and the list the entry. -/
def join (l : Nat) (list : MwAwareList) (entries : Table) (id : MwAwareIdBlock) (addr : Nat)
    (s : MwServiceAware) : MwServiceAware :=
  match s.entry addr with
  | none => crash s
  | some entry =>
      setList (setEntry s addr (some { entry with membership := entry.membership ++ [l] })) l
        (some { list with entries := some (insert (mwAwareIdBlockHash id) addr entries) })

/-- `list_add`, for a user that is neither `NULL` nor empty. It returns whether the list
did not have the id. -/
def listAdd (l : Nat) (list : MwAwareList) (id : MwAwareIdBlock) (s : MwServiceAware) :
    Bool × MwServiceAware :=
  let entries := list.entries.getD []
  let s := setList s l (some { list with entries := some entries })
  match find s entries id with
  | some _ => (false, s)
  | none =>
      let (addr, s) := entryFor id s
      (true, join l list entries id addr s)

/-- `list_add` -/
def listAddId (l : Nat) (id : MwAwareIdBlock) (s : MwServiceAware) : Bool × MwServiceAware :=
  match s.list l with
  | none => (false, crash s)
  | some list => if id.user.length = 0 then (false, s) else listAdd l list id s

/-- The loop of `mwAwareList_addAware`, with the additions so far -/
def addAll (l : Nat) : List MwAwareIdBlock → List MwAwareIdBlock → MwServiceAware →
    List MwAwareIdBlock × MwServiceAware
  | [], additions, s => (additions, s)
  | id :: ids, additions, s =>
      let (added, s) := listAddId l id s
      addAll l ids (if added then id :: additions else additions) s

/-- `mwAwareList_addAware` -/
def mwAwareListAddAware (l : Nat) (ids : List MwAwareIdBlock) (w : AwareWorld) : AwareWorld :=
  let (additions, s) := addAll l ids [] w.srvc
  let w : AwareWorld := { w with srvc := s }
  if w.isLive ∧ additions ≠ [] then sendAdd w additions else w

/-- `aware->membership = g_list_remove(aware->membership, list)` -/
def dismember (l : Nat) (s : MwServiceAware) (addr : Nat) : MwServiceAware :=
  match s.entry addr with
  | none => crash s
  | some entry => setEntry s addr (some { entry with membership := entry.membership.erase l })

/-- One id of `mwAwareList_removeAware` -/
def removeId (l : Nat) (s : MwServiceAware) (id : MwAwareIdBlock) : MwServiceAware :=
  match s.list l with
  | none => crash s
  | some list =>
      match list.entries with
      | none => s
      | some entries =>
          if id.user = none then crash s
          else
            match find s entries id with
            | none => s
            | some addr =>
                let s := dismember l s addr
                setList s l
                  (some { list with
                    entries := some (remove (entryKey s) (mwAwareIdBlockHash id) id entries) })

/-- `mwAwareList_removeAware` -/
def mwAwareListRemoveAware (l : Nat) (ids : List MwAwareIdBlock) (w : AwareWorld) : AwareWorld :=
  removeUnused { w with srvc := ids.foldl (removeId l) w.srvc }

/-- `watch_add` -/
def watchAdd (l : Nat) (s : MwServiceAware) (key : UInt32) : MwServiceAware :=
  match s.list l with
  | none => crash s
  | some list =>
      let keys := list.attribs.getD []
      if key ∈ keys then setList s l (some { list with attribs := some keys })
      else
        let s := setList s l (some { list with attribs := some (keys ++ [key]) })
        let attribs :=
          if s.attribs.any (·.key = key) then s.attribs else s.attribs ++ [{ key := key }]
        { s with attribs := attribs.map fun watch =>
            if watch.key = key then { watch with membership := l :: watch.membership } else watch }

/-- `watch->membership = g_list_remove(watch->membership, list)` -/
def unwatch (l : Nat) (attribs : List AttribEntry) (key : UInt32) : List AttribEntry :=
  attribs.map fun watch =>
    if watch.key = key then { watch with membership := watch.membership.erase l } else watch

/-- `watch_remove` -/
def watchRemove (l : Nat) (s : MwServiceAware) (key : UInt32) : MwServiceAware :=
  match s.list l with
  | none => crash s
  | some list =>
      let keys := list.attribs.getD []
      if key ∈ keys then
        { setList s l (some { list with attribs := some (keys.erase key) }) with
          attribs := unwatch l s.attribs key }
      else s

/-- `mwAwareList_watchAttributes`, with the keys up to the zero that ends them -/
def mwAwareListWatchAttributes (l : Nat) (keys : List UInt32) (w : AwareWorld) : AwareWorld :=
  sendAttribList { w with srvc := (keys.takeWhile (· ≠ 0)).foldl (watchAdd l) w.srvc }

/-- `mwAwareList_unwatchAttributes`, with the keys up to the zero that ends them -/
def mwAwareListUnwatchAttributes (l : Nat) (keys : List UInt32) (w : AwareWorld) : AwareWorld :=
  removeUnusedAttrib { w with srvc := (keys.takeWhile (· ≠ 0)).foldl (watchRemove l) w.srvc }

/-- `mwAwareList_unwatchAllAttributes` of a list that is about to be freed -/
def mwAwareListUnwatchAllAttributes (l : Nat) (list : MwAwareList) (w : AwareWorld) : AwareWorld :=
  removeUnusedAttrib
    { w with srvc :=
        { w.srvc with attribs := (list.attribs.getD []).foldl (unwatch l) w.srvc.attribs } }

/-- `mwAwareList_removeAllAware` of a list that is about to be freed -/
def mwAwareListRemoveAllAware (l : Nat) (list : MwAwareList) (w : AwareWorld) : AwareWorld :=
  removeUnused { w with srvc := (addrs (list.entries.getD [])).foldl (dismember l) w.srvc }

/-- `mwAwareList_free` -/
def mwAwareListFree (l : Nat) (w : AwareWorld) : AwareWorld :=
  match w.srvc.list l with
  | none => w
  | some list =>
      let w : AwareWorld :=
        { w with srvc := record { w.srvc with lists := w.srvc.lists.filter (· ≠ l) } (.clear l) }
      let w := mwAwareListUnwatchAllAttributes l list w
      let w := mwAwareListRemoveAllAware l list w
      { w with srvc := setList w.srvc l none }

/-! ## What the server says -/

/-- A function of the handlers of the lists that have an entry -/
def tellLists (e : Nat → MwAwareList → Option AwareEvent) (s : MwServiceAware) (membership : List Nat) :
    MwServiceAware :=
  membership.foldl (fun s l =>
    match s.list l with
    | none => crash s
    | some list =>
        match e l list with
        | none => s
        | some e => record s e) s

/-- `status_recv` -/
def statusRecv (idb : MwAwareSnapshot) (s : MwServiceAware) : MwServiceAware :=
  let (aware, s) := awareFind s idb.id
  match aware with
  | none => s
  | some addr =>
      match s.entry addr with
      | none => crash s
      | some entry =>
          tellLists (fun l _ => some (.onAware l idb))
            (setEntry s addr (some { entry with aware := mwAwareSnapshotClone idb }))
            entry.membership

/-- `attrib_recv` -/
def attribRecv (idb : MwAwareIdBlock) (key : UInt32) (data : MwOpaque) (s : MwServiceAware) :
    MwServiceAware :=
  let (aware, s) := awareFind s idb
  match aware with
  | none => s
  | some addr =>
      match s.entry addr with
      | none => crash s
      | some entry =>
          tellLists
            (fun l list => if key ∈ list.attribs.getD [] then some (.onAttrib l idb key data) else none)
            (setEntry s addr
              (some { entry with attribs := Function.update entry.attribs key (some data) }))
            entry.membership

/-- `group_member_recv`. The lists that have the group are the same throughout: a group
that is its own member is in each of them already. -/
def groupMemberRecv (idb : MwAwareSnapshot) (w : AwareWorld) : AwareWorld :=
  let (grp, s) := awareFind w.srvc { type := mwAwareGroup, user := idb.group }
  let w : AwareWorld := { w with srvc := s }
  match grp with
  | none => w
  | some addr =>
      match w.srvc.entry addr with
      | none => { w with srvc := crash w.srvc }
      | some entry => entry.membership.foldl (fun w l => mwAwareListAddAware l [idb.id] w) w

/-- The loop of `recv_SNAPSHOT` -/
def snapshots (stack : AwareStack) : Nat → GetBuffer → AwareWorld → AwareWorld
  | 0, _, w => w
  | count + 1, b, w =>
      let (snap, b) := mwAwareSnapshotGet stack.endOfBlock b
      if b.error then w
      else
        let w := if snap.group.isSome then groupMemberRecv snap w else w
        snapshots stack count b { w with srvc := statusRecv snap w.srvc }

/-- `recv_SNAPSHOT` -/
def recvSnapshot (stack : AwareStack) (b : GetBuffer) (w : AwareWorld) : AwareWorld :=
  let (count, b) := guint32Get stack.count b
  snapshots stack count.toNat b w

/-- `recv_UPDATE` -/
def recvUpdate (stack : AwareStack) (b : GetBuffer) (w : AwareWorld) : AwareWorld :=
  let (snap, b) := mwAwareSnapshotGet stack.endOfBlock b
  let w := if snap.group.isSome then groupMemberRecv snap w else w
  if b.error then w else { w with srvc := statusRecv snap w.srvc }

/-- What `recv_OPT_GOT_SET` reads: the id, the key and the data of the attribute -/
def gotSetGet (stack : AwareStack) : Get (MwAwareIdBlock × UInt32 × MwOpaque) := do
  let _ ← guint32Get 0
  let idb ← mwAwareIdBlockGet stack.setIdb
  let _ ← guint32Get 0
  let check ← guint32Get stack.setCheck
  let _ ← guint32Get 0
  let key ← guint32Get stack.setKey
  let data ← if check ≠ 0 then mwOpaqueGet else pure []
  return (idb, key, data)

/-- `recv_OPT_GOT_SET` -/
def recvOptGotSet (stack : AwareStack) (b : GetBuffer) (w : AwareWorld) : AwareWorld :=
  let (idb, key, data) := (gotSetGet stack b).1
  { w with srvc := attribRecv idb key data w.srvc }

/-- What `recv_OPT_GOT_UNSET` reads: the id and the key -/
def gotUnsetGet (stack : AwareStack) : Get (MwAwareIdBlock × UInt32) := do
  let _ ← guint32Get 0
  let idb ← mwAwareIdBlockGet stack.unsetIdb
  let key ← guint32Get 0
  return (idb, key)

/-- `recv_OPT_GOT_UNSET` -/
def recvOptGotUnset (stack : AwareStack) (b : GetBuffer) (w : AwareWorld) : AwareWorld :=
  let (idb, key) := (gotUnsetGet stack b).1
  { w with srvc := attribRecv idb key [] w.srvc }

def msgAwareSnapshot : UInt16 := 0x01f4
def msgAwareUpdate : UInt16 := 0x01f5
def msgOptGotSet : UInt16 := 0x0259
def msgOptGotUnset : UInt16 := 0x025a

/-- The handler for a message, by its type. For the other types nothing is done. -/
def handle (stack : AwareStack) (msg : Payload) (w : AwareWorld) : AwareWorld :=
  let b := GetBuffer.wrapOpaque msg.2
  if msg.1 = msgAwareSnapshot then recvSnapshot stack b w
  else if msg.1 = msgAwareUpdate then recvUpdate stack b w
  else if msg.1 = msgOptGotSet then recvOptGotSet stack b w
  else if msg.1 = msgOptGotUnset then recvOptGotUnset stack b w
  else w

/-- `recv` -/
def recv (frames : Nat → AwareStack) (chan : Nat) (msg : Payload) (w : AwareWorld) : AwareWorld :=
  if w.srvc.channel = some chan then
    handle (frames w.srvc.handled) msg { w with srvc := { w.srvc with handled := w.srvc.handled + 1 } }
  else w

/-! ## The channel of the service -/

/-- `start`, with `make_blist` -/
def start (w : AwareWorld) : AwareWorld :=
  match w.createChannel with
  | (some chan, w) => { w with srvc := { w.srvc with channel := some chan } }
  | (none, w) => w.mwServiceStopped

/-- `stop` -/
def stop (w : AwareWorld) : AwareWorld :=
  let w : AwareWorld :=
    match w.srvc.channel with
    | some chan =>
        let w := w.mwChannelDestroy chan 0
        { w with srvc := { w.srvc with channel := none } }
    | none => w
  w.mwServiceStopped

/-- `recv_accept` -/
def recvAccept (chan : Nat) (w : AwareWorld) : AwareWorld :=
  if w.srvc.channel = some chan then
    if w.state = .starting then
      let ids := w.srvc.entries.filterMap fun n => entryKey w.srvc n.addr
      (sendAttribList (sendAdd w ids)).mwServiceStarted
    else w.mwChannelDestroy chan errFailure
  else w

/-- `recv_destroy` -/
def recvDestroy (w : AwareWorld) : AwareWorld :=
  World.mwServiceStop stop { w with srvc := { w.srvc with channel := none } }

/-- `clear` -/
def clear (w : AwareWorld) : AwareWorld :=
  let w := w.srvc.lists.foldl (fun w l => mwAwareListFree l w) w
  { w with srvc := { w.srvc with entries := [], attribs := [], entry := fun _ => none } }

/-- The functions of the service -/
def fns (frames : Nat → AwareStack) : ServiceFns MwServiceAware AwareMsg Payload where
  start := start
  stop := stop
  recvAccept := recvAccept
  recvDestroy := fun _ _ => recvDestroy
  recv := recv frames
  clear := clear

/-! ## Runs -/

/-- What the client asks of the service -/
inductive Call where
  | listNew
  | listFree (l : Nat)
  | addAware (l : Nat) (ids : List MwAwareIdBlock)
  | removeAware (l : Nat) (ids : List MwAwareIdBlock)
  | watchAttributes (l : Nat) (keys : List UInt32)
  | unwatchAttributes (l : Nat) (keys : List UInt32)
  | setStatus (user : MwAwareIdBlock) (stat : MwUserStatus)

/-- A call of the client for one of its lists -/
def onList (l : Nat) (f : AwareWorld → AwareWorld) (w : AwareWorld) : AwareWorld :=
  if (w.srvc.list l).isSome then f w else w

def runCall (w : AwareWorld) : Call → AwareWorld
  | .listNew => { w with srvc := mwAwareListNew w.srvc }
  | .listFree l => onList l (mwAwareListFree l) w
  | .addAware l ids => onList l (mwAwareListAddAware l ids) w
  | .removeAware l ids => onList l (mwAwareListRemoveAware l ids) w
  | .watchAttributes l keys => onList l (mwAwareListWatchAttributes l keys) w
  | .unwatchAttributes l keys => onList l (mwAwareListUnwatchAttributes l keys) w
  -- `mwServiceAware_setStatus`
  | .setStatus user stat =>
      { w with srvc := statusRecv { id := user, online := true, status := stat } w.srvc }

/-- What can happen to the service -/
inductive Step where
  | call (call : Call)
  | input (input : Input Payload)

def step (frames : Nat → AwareStack) (w : AwareWorld) : Step → AwareWorld
  | .call call => if w.freed then w else runCall w call
  | .input input => w.input (fns frames) input

def run (frames : Nat → AwareStack) (steps : List Step) (w : AwareWorld) : AwareWorld :=
  steps.foldl (step frames) w

/-- `mwServiceAware_new`, with what `io_write` is going to return -/
def mwServiceAwareNew (ret : Nat → Int) : AwareWorld := { srvc := {}, ret := ret }

end Meanwhile.Aware
