-- SUMMARY: The blocks of a snapshot: where the loop of recv_SNAPSHOT takes the cursor, and what it makes of bytes it does not know.
import Meanwhile.Service.Aware
import Meanwhile.Common.Cursor
import Mathlib.Algebra.Order.BigOperators.Group.List

/-!
# Blocks of a snapshot

Each block begins with the offset at which it ends, so that bytes may stand behind the
fields that the library knows. `blocksRead` is what the loop reads, and the loop does with
the service what those blocks say (`recvSnapshot_eq`).

A `WireSnapshot` is a block as bytes, with strings that may hold zeros and any byte but
zero for true. A payload is a count and blocks with extra bytes, and the offsets are those
at which they end.
-/

namespace Meanwhile.Aware

open GetBuffer Get

/-! ## What the loop reads -/

/-- The blocks that the loop of `recv_SNAPSHOT` reads, each with the buffer after it -/
def blocksRead (stack : AwareStack) : Nat → GetBuffer → List (MwAwareSnapshot × GetBuffer)
  | 0, _ => []
  | count + 1, b =>
      let r := mwAwareSnapshotGet stack.endOfBlock b
      if r.2.error then [r] else r :: blocksRead stack count r.2

/-- What is done with a block that has been read -/
def takeBlock (w : AwareWorld) (r : MwAwareSnapshot × GetBuffer) : AwareWorld :=
  if r.2.error then w
  else
    let w := if r.1.group.isSome then groupMemberRecv r.1 w else w
    { w with srvc := statusRecv r.1 w.srvc }

theorem snapshots_eq (stack : AwareStack) (count : Nat) (b : GetBuffer) (w : AwareWorld) :
    snapshots stack count b w = (blocksRead stack count b).foldl takeBlock w := by
  induction count generalizing b w with
  | zero => rfl
  | succ count ih =>
    unfold snapshots blocksRead
    dsimp only
    generalize mwAwareSnapshotGet stack.endOfBlock b = r
    obtain ⟨snap, b'⟩ := r
    dsimp only
    split
    case isTrue herror =>
      rw [List.foldl_cons, List.foldl_nil, takeBlock, if_pos herror]
    case isFalse hok =>
      rw [List.foldl_cons, ih, takeBlock, if_neg hok]

/-- What `recv_SNAPSHOT` reads of a payload -/
def payloadRead (stack : AwareStack) (o : MwOpaque) : List (MwAwareSnapshot × GetBuffer) :=
  let (count, b) := guint32Get stack.count (.wrapOpaque o)
  blocksRead stack count.toNat b

theorem recvSnapshot_eq (stack : AwareStack) (o : MwOpaque) (w : AwareWorld) :
    recvSnapshot stack (.wrapOpaque o) w = (payloadRead stack o).foldl takeBlock w :=
  snapshots_eq stack _ _ w

/-! ## Where the cursor goes -/

theorem mwAwareIdBlockGet_forward (idb : MwAwareIdBlock) : (mwAwareIdBlockGet idb).Forward := by
  unfold mwAwareIdBlockGet
  apply Forward.guarded
  refine Keeps.bind (Forward.guint16 _) fun _ => ?_
  refine Keeps.bind Forward.string fun _ => ?_
  exact Keeps.bind Forward.string fun _ => Keeps.pure _

theorem mwAwareSnapshotGet_forward (endOfBlock : UInt32) :
    (mwAwareSnapshotGet endOfBlock).Forward := by
  unfold mwAwareSnapshotGet
  refine Keeps.bind (Forward.guint32 _) fun _ => ?_
  refine Keeps.bind (mwAwareIdBlockGet_forward _) fun _ => ?_
  refine Keeps.bind Forward.string fun _ => ?_
  refine Keeps.bind (Forward.gboolean _) fun online => ?_
  cases online with
  | false =>
    simp only [Bool.false_eq_true, if_false, pure_bind]
    exact Keeps.bind Keeps.get fun b =>
      Keeps.ite (fun _ => Keeps.bind (Forward.advance _) fun _ => Keeps.pure _) fun _ => Keeps.pure _
  | true =>
    simp only [if_true]
    refine Keeps.bind Forward.string fun _ => ?_
    refine Keeps.bind (Forward.userStatus _) fun _ => ?_
    refine Keeps.bind Forward.string fun _ => ?_
    exact Keeps.bind Keeps.get fun b =>
      Keeps.ite (fun _ => Keeps.bind (Forward.advance _) fun _ => Keeps.pure _) fun _ => Keeps.pure _

/-- The cursors go forward from `ptr` and stay inside of `len` bytes. -/
def Onward (ptr len : Nat) (bs : List GetBuffer) : Prop :=
  (ptr :: bs.map GetBuffer.ptr).IsChain (· ≤ ·) ∧ ∀ b ∈ bs, b.ptr ≤ len

/-- Of the blocks that are announced, all are read up to the first that cannot be. -/
structure StopsAtError (count : Nat) (rs : List (MwAwareSnapshot × GetBuffer)) : Prop where
  only : ∀ r ∈ rs.dropLast, r.2.error = false
  full : (∀ r ∈ rs, r.2.error = false) → rs.length = count

theorem blocksRead_onward (stack : AwareStack) (count : Nat) {b : GetBuffer} (hb : b.Sound) :
    Onward b.ptr b.buf.length ((blocksRead stack count b).map Prod.snd) := by
  induction count generalizing b with
  | zero => exact ⟨List.isChain_singleton _, by simp [blocksRead]⟩
  | succ count ih =>
    have hnext := mwAwareSnapshotGet_forward stack.endOfBlock b
    have hsound := hnext.sound hb
    unfold blocksRead
    dsimp only
    generalize mwAwareSnapshotGet stack.endOfBlock b = r at hnext hsound ⊢
    have hptr : r.2.ptr ≤ b.buf.length := by
      have hcount : r.2.ptr + r.2.rem = r.2.buf.length := hsound
      rw [hnext.buf] at hcount
      omega
    split
    · exact ⟨.cons_cons hnext.ptr (List.isChain_singleton _), by simpa using hptr⟩
    · obtain ⟨hchain, hinside⟩ := ih hsound
      rw [hnext.buf] at hinside
      refine ⟨.cons_cons hnext.ptr hchain, ?_⟩
      rw [List.map_cons, List.forall_mem_cons]
      exact ⟨hptr, hinside⟩

theorem blocksRead_stops (stack : AwareStack) (count : Nat) (b : GetBuffer) :
    StopsAtError count (blocksRead stack count b) := by
  induction count generalizing b with
  | zero => exact ⟨fun r hr => (nomatch hr), fun _ => rfl⟩
  | succ count ih =>
    have hrest := ih (mwAwareSnapshotGet stack.endOfBlock b).2
    unfold blocksRead
    dsimp only
    split
    case isTrue herror =>
      refine ⟨fun r hr => (nomatch hr), fun hok => ?_⟩
      exact absurd herror (by simp [hok _ List.mem_cons_self])
    case isFalse hok =>
      constructor
      · intro r hr
        cases hrs : blocksRead stack count (mwAwareSnapshotGet stack.endOfBlock b).2 with
        | nil =>
          rw [hrs] at hr
          exact nomatch hr
        | cons r' rs =>
          rw [hrs, List.dropLast_cons_of_ne_nil (List.cons_ne_nil _ _)] at hr
          rcases List.mem_cons.mp hr with rfl | hr
          · exact Bool.eq_false_of_not_eq_true hok
          · exact hrest.only r (by rwa [hrs])
      · intro hall
        exact congrArg (· + 1) (hrest.full fun r hr => hall r (List.mem_cons_of_mem _ hr))

/-! ## Blocks as bytes -/

/-- The characters of a string on the wire -/
def WireString : Type := { s : List UInt8 // s.length < 2 ^ 16 }

def WireString.bytes (s : WireString) : List UInt8 :=
  guint16Put (UInt16.ofNat s.val.length) ++ s.val

/-- What `mwString_get` reads -/
def WireString.value (s : WireString) : MwString :=
  if s.val = [] then none else some (CString.ofBytes s.val)

/-- What a block has if it is of somebody who is online -/
structure WireOnline where
  flag : UInt8
  flag_ne : flag ≠ 0
  altId : WireString
  status : UInt16
  time : UInt32
  desc : WireString
  name : WireString

/-- A block without its offset -/
structure WireSnapshot where
  type : UInt16
  user : WireString
  community : WireString
  group : WireString
  online : Option WireOnline

def WireOnline.bytes (o : WireOnline) : List UInt8 :=
  [o.flag] ++ (o.altId.bytes ++ (guint16Put o.status ++ (guint32Put o.time ++
    (o.desc.bytes ++ o.name.bytes))))

def WireSnapshot.bytes (snap : WireSnapshot) : List UInt8 :=
  guint16Put snap.type ++ (snap.user.bytes ++ (snap.community.bytes ++ (snap.group.bytes ++
    match snap.online with
    | none => [0]
    | some o => o.bytes)))

def WireSnapshot.value (snap : WireSnapshot) : MwAwareSnapshot where
  id := { type := snap.type, user := snap.user.value, community := snap.community.value }
  group := snap.group.value
  online := snap.online.isSome
  altId := snap.online.elim none fun o => o.altId.value
  status := snap.online.elim {} fun o => { status := o.status, desc := o.desc.value }
  name := snap.online.elim none fun o => o.name.value

theorem mwStringGet_bytes (s : WireString) (pre post : List UInt8) :
    mwStringGet (.between pre (s.bytes ++ post)) = (s.value, .between (pre ++ s.bytes) post) := by
  have hlen : (UInt16.ofNat s.val.length).toNat = s.val.length := UInt16.toNat_ofNat_of_lt s.property
  by_cases hnil : s.val = []
  · simp [mwStringGet, WireString.bytes, WireString.value, hnil]
  · have hne : UInt16.ofNat s.val.length ≠ 0 := by
      intro h
      rw [h] at hlen
      exact hnil (List.length_eq_zero_iff.mp hlen.symm)
    simp [mwStringGet, WireString.bytes, WireString.value, hnil, hne, hlen, GetBuffer.between_skip]

theorem gbooleanGet_byte (old : Bool) (c : UInt8) (pre post : List UInt8) :
    gbooleanGet old (.between pre ([c] ++ post)) = (decide (c ≠ 0), .between (pre ++ [c]) post) := by
  have hskip := GetBuffer.between_skip pre [c] post
  rw [List.length_singleton] at hskip
  simp only [List.singleton_append] at hskip ⊢
  simp [gbooleanGet, hskip]

theorem mwGetBufferAdvance_between (pre mid post : List UInt8) :
    mwGetBufferAdvance mid.length (.between pre (mid ++ post)) = ((), .between (pre ++ mid) post) := by
  simp [mwGetBufferAdvance, GetBuffer.between_skip]

/-- What is left of a block is skipped. -/
theorem skipRest (snap : MwAwareSnapshot) (stop : UInt32) (pre extra post : List UInt8)
    (hstop : stop.toNat = pre.length + extra.length) :
    (do
      let b ← get
      if b.ptr < stop.toNat then mwGetBufferAdvance (stop.toNat - b.ptr)
      return snap : Get MwAwareSnapshot) (.between pre (extra ++ post)) =
      (snap, .between (pre ++ extra) post) := by
  have hptr : (GetBuffer.between pre (extra ++ post)).ptr = pre.length := rfl
  have hget : ∀ f : GetBuffer → Get MwAwareSnapshot, ∀ b, (get >>= f) b = f b b := fun _ _ => rfl
  rw [hget, hptr]
  cases extra with
  | nil =>
    rw [if_neg (by simp [hstop]), List.append_nil]
    rfl
  | cons c extra =>
    have hlen : stop.toNat - pre.length = (c :: extra).length := by omega
    rw [if_pos (by simp [hstop]), Get.bind_apply, hlen, mwGetBufferAdvance_between]
    rfl

theorem mwAwareIdBlockGet_bytes (idb : MwAwareIdBlock) (snap : WireSnapshot)
    (pre post : List UInt8) :
    mwAwareIdBlockGet idb (.between pre
        (guint16Put snap.type ++ (snap.user.bytes ++ (snap.community.bytes ++ post)))) =
      (snap.value.id,
        .between (pre ++ (guint16Put snap.type ++ (snap.user.bytes ++ snap.community.bytes))) post) := by
  simp [mwAwareIdBlockGet, mwStringGet_bytes, WireSnapshot.value]

theorem mwUserStatusGet_bytes (o : WireOnline) (pre post : List UInt8) :
    mwUserStatusGet {} (.between pre
        (guint16Put o.status ++ (guint32Put o.time ++ (o.desc.bytes ++ post)))) =
      ({ status := o.status, desc := o.desc.value },
        .between (pre ++ (guint16Put o.status ++ (guint32Put o.time ++ o.desc.bytes))) post) := by
  simp [mwUserStatusGet, mwStringGet_bytes]

/-- A block is read up to the offset that it begins with. -/
theorem mwAwareSnapshotGet_block (stack stop : UInt32) (snap : WireSnapshot)
    (pre extra post : List UInt8)
    (hstop : stop.toNat = pre.length + 4 + snap.bytes.length + extra.length) :
    mwAwareSnapshotGet stack
        (.between pre (guint32Put stop ++ (snap.bytes ++ (extra ++ post)))) =
      (snap.value, .between (pre ++ (guint32Put stop ++ (snap.bytes ++ extra))) post) := by
  have hrest := skipRest snap.value stop (pre ++ guint32Put stop ++ snap.bytes) extra post (by
    simp [hstop, Nat.add_assoc])
  obtain ⟨type, user, community, group, online⟩ := snap
  cases online with
  | none =>
    simp only [WireSnapshot.bytes, List.append_assoc] at hrest ⊢
    unfold mwAwareSnapshotGet
    rw [Get.bind_apply, guint32Get_between, Get.bind_apply,
      mwAwareIdBlockGet_bytes {} ⟨type, user, community, group, none⟩, Get.bind_apply,
      mwStringGet_bytes, Get.bind_apply, gbooleanGet_byte]
    simp only [List.append_assoc]
    exact hrest
  | some o =>
    have hflag : decide (o.flag ≠ 0) = true := decide_eq_true o.flag_ne
    simp only [WireSnapshot.bytes, WireOnline.bytes, List.append_assoc] at hrest ⊢
    unfold mwAwareSnapshotGet
    rw [Get.bind_apply, guint32Get_between, Get.bind_apply,
      mwAwareIdBlockGet_bytes {} ⟨type, user, community, group, some o⟩, Get.bind_apply,
      mwStringGet_bytes, Get.bind_apply, gbooleanGet_byte, hflag]
    simp only [if_true]
    rw [Get.bind_apply, mwStringGet_bytes, Get.bind_apply, mwUserStatusGet_bytes, Get.bind_apply,
      mwStringGet_bytes]
    simp only [List.append_assoc]
    exact hrest

/-! ## Payloads -/

/-- A block with the bytes behind its fields -/
structure Block where
  snap : WireSnapshot
  extra : List UInt8

def Block.length (block : Block) : Nat := 4 + block.snap.bytes.length + block.extra.length

/-- A block that ends at an offset -/
def Block.bytes (block : Block) (stop : Nat) : List UInt8 :=
  guint32Put (UInt32.ofNat stop) ++ (block.snap.bytes ++ block.extra)

/-- A block without the bytes behind its fields -/
def Block.stripped (block : Block) : Block := { block with extra := [] }

/-- Blocks, the first of which begins at an offset -/
def blocksBytes : Nat → List Block → List UInt8
  | _, [] => []
  | start, block :: blocks =>
      block.bytes (start + block.length) ++ blocksBytes (start + block.length) blocks

def payloadOf (blocks : List Block) : MwOpaque :=
  guint32Put (UInt32.ofNat blocks.length) ++ blocksBytes 4 blocks

theorem Block.bytes_length (block : Block) (stop : Nat) :
    (block.bytes stop).length = block.length := by
  simp [Block.bytes, Block.length]
  omega

theorem blocksBytes_length (start : Nat) (blocks : List Block) :
    (blocksBytes start blocks).length = (blocks.map Block.length).sum := by
  induction blocks generalizing start with
  | nil => rfl
  | cons block blocks ih =>
    rw [blocksBytes, List.length_append, block.bytes_length, ih, List.map_cons, List.sum_cons]

theorem payloadOf_length (blocks : List Block) :
    (payloadOf blocks).length = 4 + (blocks.map Block.length).sum := by
  rw [payloadOf, List.length_append, guint32Put_length, blocksBytes_length]

theorem length_le_sum (blocks : List Block) :
    blocks.length ≤ (blocks.map Block.length).sum := by
  induction blocks with
  | nil => exact Nat.le_refl _
  | cons block blocks ih =>
    have hpos : 1 ≤ block.length := by
      unfold Block.length
      omega
    rw [List.length_cons, List.map_cons, List.sum_cons]
    omega

/-- The loop reads block by block what they say. -/
theorem blocksRead_bytes (stack : AwareStack) (blocks : List Block) (pre : List UInt8)
    (hfits : pre.length + (blocks.map Block.length).sum < 2 ^ 32) :
    (blocksRead stack blocks.length (.between pre (blocksBytes pre.length blocks))).map Prod.fst =
        blocks.map (·.snap.value) ∧
      ∀ r ∈ blocksRead stack blocks.length (.between pre (blocksBytes pre.length blocks)),
        r.2.error = false := by
  induction blocks generalizing pre with
  | nil => exact ⟨rfl, fun r hr => (nomatch hr)⟩
  | cons block blocks ih =>
    rw [List.map_cons, List.sum_cons] at hfits
    have hstop : (UInt32.ofNat (pre.length + block.length)).toNat =
        pre.length + 4 + block.snap.bytes.length + block.extra.length := by
      rw [UInt32.toNat_ofNat_of_lt' (show pre.length + block.length < 2 ^ 32 by omega)]
      unfold Block.length
      omega
    have hread := mwAwareSnapshotGet_block stack.endOfBlock _ block.snap pre block.extra
      (blocksBytes (pre.length + block.length) blocks) hstop
    have hlen : (pre ++ block.bytes (pre.length + block.length)).length =
        pre.length + block.length := by
      rw [List.length_append, block.bytes_length]
    have hrest := ih (pre ++ block.bytes (pre.length + block.length)) (by
      rw [hlen]
      omega)
    rw [hlen] at hrest
    have hbytes : blocksBytes pre.length (block :: blocks) =
        guint32Put (UInt32.ofNat (pre.length + block.length)) ++ (block.snap.bytes ++
          (block.extra ++ blocksBytes (pre.length + block.length) blocks)) := by
      simp [blocksBytes, Block.bytes]
    rw [hbytes, List.length_cons, blocksRead]
    rw [hread]
    simp only [GetBuffer.between_error, Bool.false_eq_true, if_false, List.map_cons,
      List.forall_mem_cons]
    exact ⟨congrArg (block.snap.value :: ·) hrest.1, trivial, hrest.2⟩

/-- The blocks of a payload whose offsets fit their words are all read. -/
theorem payloadRead_payloadOf (stack : AwareStack) (blocks : List Block)
    (hfits : (payloadOf blocks).length < 2 ^ 32) :
    (payloadRead stack (payloadOf blocks)).map Prod.fst = blocks.map (·.snap.value) ∧
      ∀ r ∈ payloadRead stack (payloadOf blocks), r.2.error = false := by
  rw [payloadOf_length] at hfits
  have hcount : (UInt32.ofNat blocks.length).toNat = blocks.length := by
    have hle := length_le_sum blocks
    exact UInt32.toNat_ofNat_of_lt' (show blocks.length < 2 ^ 32 by omega)
  have hread := blocksRead_bytes stack blocks (guint32Put (UInt32.ofNat blocks.length)) (by
    rwa [guint32Put_length])
  rw [guint32Put_length] at hread
  unfold payloadRead payloadOf
  rw [GetBuffer.wrapOpaque_eq_between, guint32Get_between, List.nil_append]
  dsimp only
  rwa [hcount]

theorem foldl_takeBlock {rs rs' : List (MwAwareSnapshot × GetBuffer)}
    (hfst : rs.map Prod.fst = rs'.map Prod.fst) (hok : ∀ r ∈ rs, r.2.error = false)
    (hok' : ∀ r ∈ rs', r.2.error = false) (w : AwareWorld) :
    rs.foldl takeBlock w = rs'.foldl takeBlock w := by
  induction rs generalizing rs' w with
  | nil =>
    rw [List.map_nil, eq_comm, List.map_eq_nil_iff] at hfst
    rw [hfst]
  | cons r rs ih =>
    obtain ⟨r', rs', rfl⟩ : ∃ r' rs'', rs' = r' :: rs'' := by
      cases rs' with
      | nil => exact nomatch hfst
      | cons r' rs'' => exact ⟨r', rs'', rfl⟩
    rw [List.map_cons, List.map_cons] at hfst
    obtain ⟨hhead, htail⟩ := List.cons.inj hfst
    rw [List.forall_mem_cons] at hok hok'
    have htake : takeBlock w r = takeBlock w r' := by
      unfold takeBlock
      rw [hok.1, hok'.1, hhead]
    rw [List.foldl_cons, List.foldl_cons, htake, ih htail hok.2 hok'.2]

/-- The bytes behind the fields of the blocks make no difference. In any payload the
cursor goes forward inside of it, and the loop stops at the first block that it cannot
read. -/
theorem recvSnapshot_blocks (stack : AwareStack) :
    (∀ blocks w, (payloadOf blocks).length < 2 ^ 32 →
      (payloadRead stack (payloadOf blocks)).map Prod.fst =
          (payloadRead stack (payloadOf (blocks.map Block.stripped))).map Prod.fst ∧
        recvSnapshot stack (.wrapOpaque (payloadOf blocks)) w =
          recvSnapshot stack (.wrapOpaque (payloadOf (blocks.map Block.stripped))) w) ∧
    ∀ o w, recvSnapshot stack (.wrapOpaque o) w = (payloadRead stack o).foldl takeBlock w ∧
      Onward (guint32Get stack.count (.wrapOpaque o)).2.ptr o.length
        ((payloadRead stack o).map Prod.snd) ∧
      StopsAtError (guint32Get stack.count (.wrapOpaque o)).1.toNat (payloadRead stack o) := by
  constructor
  · intro blocks w hfits
    have hshorter : ((blocks.map Block.stripped).map Block.length).sum ≤
        (blocks.map Block.length).sum := by
      rw [List.map_map]
      refine List.sum_le_sum fun block _ => ?_
      simp [Block.length, Block.stripped]
    have hfits' : (payloadOf (blocks.map Block.stripped)).length < 2 ^ 32 := by
      rw [payloadOf_length] at hfits ⊢
      omega
    obtain ⟨hread, hok⟩ := payloadRead_payloadOf stack blocks hfits
    obtain ⟨hread', hok'⟩ := payloadRead_payloadOf stack _ hfits'
    rw [List.map_map] at hread'
    have hsame := hread.trans hread'.symm
    refine ⟨hsame, ?_⟩
    rw [recvSnapshot_eq, recvSnapshot_eq]
    exact foldl_takeBlock hsame hok hok' w
  · intro o w
    have hcount := Forward.guint32 stack.count (.wrapOpaque o)
    refine ⟨recvSnapshot_eq stack o w, ?_, blocksRead_stops stack _ _⟩
    have honward := blocksRead_onward stack (guint32Get stack.count (.wrapOpaque o)).1.toNat
      (hcount.sound (.wrapOpaque o))
    rwa [hcount.buf] at honward

/-- Somebody called `a` who is offline, with three bytes more than the library knows -/
def offlineBlock : Block where
  snap :=
    { type := 2
      user := ⟨[97], by decide⟩
      community := ⟨[], by decide⟩
      group := ⟨[], by decide⟩
      online := none }
  extra := [1, 2, 3]

theorem recvSnapshot_blocks_offline :
    (payloadRead {} (payloadOf [offlineBlock, offlineBlock])).map Prod.fst =
      (payloadRead {} (payloadOf [offlineBlock.stripped, offlineBlock.stripped])).map Prod.fst :=
  ((recvSnapshot_blocks {}).1 [offlineBlock, offlineBlock]
    (mwServiceAwareNew fun _ => 0) (by decide)).1

end Meanwhile.Aware
