-- SUMMARY: The common structures of mw_common.h, their wire form, and that reading back what was written restores them.
import Meanwhile.Common.Buffer

/-!
# Common structures

Login information, privacy lists, user status, id blocks and encryption items,
each with its put and get function from `common.c`.

Reading back a structure restores it up to `canon`, which identifies `""` with
`NULL` (and, for a user status, forgets the time). `Normal` collects what the
wire form relies on: strings fit their length word, and a field that is written
only under a flag is zero when the flag is not set.
-/

namespace Meanwhile

/-! ## Login Info block -/

structure MwLoginInfo where
  loginId : MwString := none
  type : UInt16 := 0
  userId : MwString := none
  userName : MwString := none
  community : MwString := none
  full : Bool := false
  desc : MwString := none
  ipAddr : UInt32 := 0
  serverId : MwString := none
deriving DecidableEq

/-- `mwLoginInfo_put` -/
def mwLoginInfoPut (login : MwLoginInfo) : List UInt8 :=
  mwStringPut login.loginId ++
  (guint16Put login.type ++
  (mwStringPut login.userId ++
  (mwStringPut login.userName ++
  (mwStringPut login.community ++
  (gbooleanPut login.full ++
  if login.full then
    mwStringPut login.desc ++ (guint32Put login.ipAddr ++ mwStringPut login.serverId)
  else [])))))

/-- `mwLoginInfo_get` -/
def mwLoginInfoGet (login : MwLoginInfo) : Get MwLoginInfo := do
  if ← mwGetBufferError then return login
  let login := { login with loginId := ← mwStringGet }
  let login := { login with type := ← guint16Get login.type }
  let login := { login with userId := ← mwStringGet }
  let login := { login with userName := ← mwStringGet }
  let login := { login with community := ← mwStringGet }
  let login := { login with full := ← gbooleanGet login.full }
  if login.full then
    let login := { login with desc := ← mwStringGet }
    let login := { login with ipAddr := ← guint32Get login.ipAddr }
    let login := { login with serverId := ← mwStringGet }
    return login
  else
    return login

/-- `mwLoginInfo_clone`. What only a full block has is otherwise left as it is. -/
def mwLoginInfoClone (dst login : MwLoginInfo) : MwLoginInfo :=
  if login.full then login
  else { login with desc := dst.desc, ipAddr := dst.ipAddr, serverId := dst.serverId }

def MwLoginInfo.canon (login : MwLoginInfo) : MwLoginInfo :=
  { login with
    loginId := login.loginId.canon, userId := login.userId.canon,
    userName := login.userName.canon, community := login.community.canon,
    desc := login.desc.canon, serverId := login.serverId.canon }

structure MwLoginInfo.Normal (login : MwLoginInfo) : Prop where
  loginId : login.loginId.Fits
  userId : login.userId.Fits
  userName : login.userName.Fits
  community : login.community.Fits
  desc : login.desc.Fits
  serverId : login.serverId.Fits
  notFull : login.full = false → login.desc = none ∧ login.ipAddr = 0 ∧ login.serverId = none

theorem mwLoginInfoGet_between {login : MwLoginInfo} (h : login.Normal) (pre post : List UInt8) :
    mwLoginInfoGet {} (.between pre (mwLoginInfoPut login ++ post)) =
      (login.canon, .between (pre ++ mwLoginInfoPut login) post) := by
  obtain ⟨loginId, type, userId, userName, community, full, desc, ipAddr, serverId⟩ := login
  cases full with
  | false =>
    obtain ⟨rfl, rfl, rfl⟩ := h.notFull rfl
    simp [mwLoginInfoGet, mwLoginInfoPut, MwLoginInfo.canon, mwStringGet_between, h.loginId,
      h.userId, h.userName, h.community, MwString.canon]
  | true =>
    simp [mwLoginInfoGet, mwLoginInfoPut, MwLoginInfo.canon, mwStringGet_between, h.loginId,
      h.userId, h.userName, h.community, h.desc, h.serverId]

/-! ## Private Info block -/

structure MwUserItem where
  full : Bool := false
  id : MwString := none
  community : MwString := none
  name : MwString := none
deriving DecidableEq

/-- `mwUserItem_put` -/
def mwUserItemPut (user : MwUserItem) : List UInt8 :=
  gbooleanPut user.full ++
  (mwStringPut user.id ++
  (mwStringPut user.community ++
  if user.full then mwStringPut user.name else []))

/-- `mwUserItem_get` -/
def mwUserItemGet (user : MwUserItem) : Get MwUserItem := do
  if ← mwGetBufferError then return user
  let user := { user with full := ← gbooleanGet user.full }
  let user := { user with id := ← mwStringGet }
  let user := { user with community := ← mwStringGet }
  if user.full then
    return { user with name := ← mwStringGet }
  else
    return user

/-- `mwUserItem_clone` -/
def mwUserItemClone (user : MwUserItem) : MwUserItem :=
  { user with name := if user.full then user.name else none }

def MwUserItem.canon (user : MwUserItem) : MwUserItem :=
  { user with id := user.id.canon, community := user.community.canon, name := user.name.canon }

structure MwUserItem.Normal (user : MwUserItem) : Prop where
  id : user.id.Fits
  community : user.community.Fits
  name : user.name.Fits
  notFull : user.full = false → user.name = none

theorem mwUserItemGet_between {user : MwUserItem} (h : user.Normal) (pre post : List UInt8) :
    mwUserItemGet {} (.between pre (mwUserItemPut user ++ post)) =
      (user.canon, .between (pre ++ mwUserItemPut user) post) := by
  obtain ⟨full, id, community, name⟩ := user
  cases full with
  | false =>
    obtain rfl := h.notFull rfl
    simp [mwUserItemGet, mwUserItemPut, MwUserItem.canon, mwStringGet_between, h.id, h.community,
      MwString.canon]
  | true =>
    simp [mwUserItemGet, mwUserItemPut, MwUserItem.canon, mwStringGet_between, h.id, h.community,
      h.name]

structure MwPrivacyInfo where
  deny : Bool := false
  count : UInt32 := 0
  users : List MwUserItem := []
deriving DecidableEq

/-- `mwPrivacyInfo_put`: the first `count` users, the last of them first. -/
def mwPrivacyInfoPut (info : MwPrivacyInfo) : List UInt8 :=
  gbooleanPut info.deny ++
  (guint32Put info.count ++
  ((info.users.take info.count.toNat).reverse.flatMap mwUserItemPut))

/-- `while(c--) mwUserItem_get(b, info->users + c)` over a zeroed array: the
users already read stand after the slots still to fill. -/
def mwUserItemsGet : Nat → List MwUserItem → Get (List MwUserItem)
  | 0, users => pure users
  | c + 1, users => do
      let user ← mwUserItemGet {}
      mwUserItemsGet c (user :: users)

/-- `mwPrivacyInfo_get` -/
def mwPrivacyInfoGet (info : MwPrivacyInfo) : Get MwPrivacyInfo := do
  if ← mwGetBufferError then return info
  let info := { info with deny := ← gbooleanGet info.deny }
  let info := { info with count := ← guint32Get info.count }
  if info.count ≠ 0 then
    return { info with users := ← mwUserItemsGet info.count.toNat [] }
  else
    return info

/-- `mwPrivacyInfo_clone` into a cleared structure -/
def mwPrivacyInfoClone (info : MwPrivacyInfo) : MwPrivacyInfo :=
  { info with users := (info.users.take info.count.toNat).map mwUserItemClone }

def MwPrivacyInfo.canon (info : MwPrivacyInfo) : MwPrivacyInfo :=
  { info with users := info.users.map MwUserItem.canon }

structure MwPrivacyInfo.Normal (info : MwPrivacyInfo) : Prop where
  count : info.count.toNat = info.users.length
  users : ∀ user ∈ info.users, user.Normal

-- The users come off the wire last to first, so the accumulator is the tail of
-- the list that has been restored so far.
theorem mwUserItemsGet_between {users : List MwUserItem} (h : ∀ user ∈ users, user.Normal)
    (acc : List MwUserItem) (pre post : List UInt8) :
    mwUserItemsGet users.length acc (.between pre (users.flatMap mwUserItemPut ++ post)) =
      ((users.map MwUserItem.canon).reverse ++ acc,
        .between (pre ++ users.flatMap mwUserItemPut) post) := by
  induction users generalizing acc pre with
  | nil => simp [mwUserItemsGet]
  | cons user users ih =>
    have hhead : user.Normal := h user List.mem_cons_self
    have htail : ∀ u ∈ users, u.Normal := fun u hu => h u (List.mem_cons_of_mem _ hu)
    simp [mwUserItemsGet, mwUserItemGet_between hhead, ih htail]

theorem mwPrivacyInfoGet_between {info : MwPrivacyInfo} (h : info.Normal) (pre post : List UInt8) :
    mwPrivacyInfoGet {} (.between pre (mwPrivacyInfoPut info ++ post)) =
      (info.canon, .between (pre ++ mwPrivacyInfoPut info) post) := by
  obtain ⟨deny, count, users⟩ := info
  have hcount : count.toNat = users.length := h.count
  have hrev : ∀ user ∈ users.reverse, user.Normal := by simpa using h.users
  have hget := mwUserItemsGet_between hrev []
  rw [List.length_reverse] at hget
  by_cases hzero : count = 0
  · subst hzero
    obtain rfl : users = [] := List.length_eq_zero_iff.mp hcount.symm
    simp [mwPrivacyInfoGet, mwPrivacyInfoPut, MwPrivacyInfo.canon]
  · simp [mwPrivacyInfoGet, mwPrivacyInfoPut, MwPrivacyInfo.canon, hzero, hget, hcount]

/-! ## User Status block -/

structure MwUserStatus where
  status : UInt16 := 0
  time : UInt32 := 0
  desc : MwString := none
deriving DecidableEq

/-- `mwUserStatus_put` -/
def mwUserStatusPut (stat : MwUserStatus) : List UInt8 :=
  guint16Put stat.status ++ (guint32Put stat.time ++ mwStringPut stat.desc)

/-- `mwUserStatus_get`: the time read is thrown away. -/
def mwUserStatusGet (stat : MwUserStatus) : Get MwUserStatus := do
  if ← mwGetBufferError then return stat
  let stat := { stat with status := ← guint16Get stat.status }
  let stat := { stat with time := ← guint32Get stat.time }
  let stat := { stat with desc := ← mwStringGet }
  return { stat with time := 0 }

def MwUserStatus.canon (stat : MwUserStatus) : MwUserStatus :=
  { stat with time := 0, desc := stat.desc.canon }

theorem mwUserStatusGet_between {stat : MwUserStatus} (h : stat.desc.Fits) (pre post : List UInt8) :
    mwUserStatusGet {} (.between pre (mwUserStatusPut stat ++ post)) =
      (stat.canon, .between (pre ++ mwUserStatusPut stat) post) := by
  simp [mwUserStatusGet, mwUserStatusPut, MwUserStatus.canon, mwStringGet_between h]

/-! ## ID block -/

structure MwIdBlock where
  user : MwString := none
  community : MwString := none
deriving DecidableEq

/-- `mwIdBlock_put` -/
def mwIdBlockPut (id : MwIdBlock) : List UInt8 :=
  mwStringPut id.user ++ mwStringPut id.community

/-- `mwIdBlock_get` -/
def mwIdBlockGet (id : MwIdBlock) : Get MwIdBlock := do
  if ← mwGetBufferError then return id
  let id := { id with user := ← mwStringGet }
  return { id with community := ← mwStringGet }

def MwIdBlock.canon (id : MwIdBlock) : MwIdBlock :=
  { user := id.user.canon, community := id.community.canon }

structure MwIdBlock.Normal (id : MwIdBlock) : Prop where
  user : id.user.Fits
  community : id.community.Fits

theorem mwIdBlockGet_between {id : MwIdBlock} (h : id.Normal) (pre post : List UInt8) :
    mwIdBlockGet {} (.between pre (mwIdBlockPut id ++ post)) =
      (id.canon, .between (pre ++ mwIdBlockPut id) post) := by
  simp [mwIdBlockGet, mwIdBlockPut, MwIdBlock.canon, mwStringGet_between, h.user, h.community]

/-! ## Encryption block -/

structure MwEncryptItem where
  id : UInt16 := 0
  info : MwOpaque := []
deriving DecidableEq

/-- `mwEncryptItem_put` -/
def mwEncryptItemPut (ei : MwEncryptItem) : List UInt8 :=
  guint16Put ei.id ++ mwOpaquePut ei.info

/-- `mwEncryptItem_get` -/
def mwEncryptItemGet (ei : MwEncryptItem) : Get MwEncryptItem := do
  if ← mwGetBufferError then return ei
  let ei := { ei with id := ← guint16Get ei.id }
  return { ei with info := ← mwOpaqueGet }

theorem mwEncryptItemGet_between {ei : MwEncryptItem} (h : ei.info.Fits) (pre post : List UInt8) :
    mwEncryptItemGet {} (.between pre (mwEncryptItemPut ei ++ post)) =
      (ei, .between (pre ++ mwEncryptItemPut ei) post) := by
  simp [mwEncryptItemGet, mwEncryptItemPut, mwOpaqueGet_between h]

end Meanwhile
