-- SUMMARY: What a run of the storage service shows, and the ledger of its requests that accounts for it.
import Meanwhile.Service.Store
import Meanwhile.Lib.History

/-!
# The requests of the storage service

`Accounted` is what a run of the storage service shows: the ids of the pending
requests, the requests written, and, event by event, why a callback or a
`data_free` was due. `Ledger` is the invariant behind it. It is about the requests
and the log and knows nothing of channels; there is one lemma for each thing that
is done to a request.
-/

namespace Meanwhile.Storage

/-! ## What a run shows -/

/-- The addresses of the requests made, in order -/
def issued (log : List StorageEvent) : List Nat :=
  (log.filterMap fun
    | .issue req => some req.addr
    | _ => none).reverse

/-- The addresses of the requests whose callback was called -/
def called (log : List StorageEvent) : List Nat :=
  log.filterMap fun
    | .callback req => some req.addr
    | _ => none

/-- The addresses of the requests whose `data_free` was called -/
def freed (log : List StorageEvent) : List Nat :=
  log.filterMap fun
    | .free req => some req.addr
    | _ => none

/-- The addresses of the requests written, in order -/
def written (wire : List (Packet StorageMessage)) : List Nat :=
  wire.filterMap fun
    | .send _ msg => some msg.req
    | _ => none

/-- How many requests have been made since the service was last stopped -/
def sinceStop : List StorageEvent → Nat
  | [] => 0
  | .stop :: _ => 0
  | .clear :: _ => 0
  | .issue _ :: log => sinceStop log + 1
  | _ :: log => sinceStop log

/-- Between two stops there are fewer than 2^32 requests. -/
def Few (log : List StorageEvent) : Prop := ∀ l, l <:+ log → sinceStop l < 2 ^ 32

/-- The word of some bytes at an offset -/
def word (n : Nat) (data : MwOpaque) : UInt32 := mw32Get 0 (data.drop n)

/-- A request is the one that was made, but for what happens to it later. -/
def SameRequest (made req : MwStorageReq) : Prop :=
  made.addr = req.addr ∧ made.id = req.id ∧ made.cb = req.cb ∧ made.data = req.data ∧
    made.dataFree = req.dataFree

/-- What was received last is a response to a request: it came on the current
channel, with the id of the request and the type that goes with its action, and its
result code is that of the request now. -/
def Answers (req : MwStorageReq) (before : List StorageEvent) : Prop :=
  ∃ chan type data older made,
    before = .recv (some chan) chan type data :: older ∧ .issue made ∈ older ∧
      SameRequest made req ∧ type = made.action.sent.code ∧ 8 ≤ data.length ∧
      word 0 data = made.id ∧ word 4 data = req.resultCode

/-- When an event may happen, by what has happened before -/
def Due : StorageEvent → List StorageEvent → Prop
  | .callback req, before =>
      Answers req before ∧ req.addr ∉ called before ∧ req.addr ∉ freed before
  | .free req, before =>
      (∃ made, .issue made ∈ before ∧ SameRequest made req) ∧ req.addr ∉ freed before
  | .stop, before | .clear, before =>
      ∀ made, .issue made ∈ before → made.dataFree.isSome → made.addr ∈ freed before
  | _, _ => True

/-- What holds of the storage service at any time -/
structure Accounted (w : StorageWorld) : Prop where
  ids_nodup : (w.srvc.pending.map (·.id)).Nodup
  ids_ne_zero : ∀ req ∈ w.srvc.pending, req.id ≠ 0
  issued_nodup : (issued w.srvc.log).Nodup
  written_in_order : (written w.wire).Sublist (issued w.srvc.log)
  called_nodup : (called w.srvc.log).Nodup
  freed_nodup : (freed w.srvc.log).Nodup
  due : Justified Due w.srvc.log

@[simp] theorem issued_nil : issued [] = [] := rfl

@[simp] theorem issued_issue (req : MwStorageReq) (log : List StorageEvent) :
    issued (.issue req :: log) = issued log ++ [req.addr] := by
  simp [issued]

@[simp] theorem written_append (wire wire' : List (Packet StorageMessage)) :
    written (wire ++ wire') = written wire ++ written wire' := by
  simp [written]

@[simp] theorem written_create (chan : Nat) : written [.create chan] = [] := rfl
@[simp] theorem written_send (chan : Nat) (msg : StorageMessage) :
    written [.send chan msg] = [msg.req] := rfl
@[simp] theorem written_destroy (chan : Nat) (reason : UInt32) :
    written [.destroy chan reason] = [] := rfl
@[simp] theorem written_senseService : written [.senseService] = [] := rfl

theorem called_nodup {log : List StorageEvent} (hdue : Justified Due log) : (called log).Nodup := by
  induction log with
  | nil => exact List.nodup_nil
  | cons e log ih =>
    cases e with
    | callback req => exact List.nodup_cons.mpr ⟨hdue.head.2.1, ih hdue.tail⟩
    | _ => exact ih hdue.tail

theorem freed_nodup {log : List StorageEvent} (hdue : Justified Due log) : (freed log).Nodup := by
  induction log with
  | nil => exact List.nodup_nil
  | cons e log ih =>
    cases e with
    | free req => exact List.nodup_cons.mpr ⟨hdue.head.2, ih hdue.tail⟩
    | _ => exact ih hdue.tail

/-! ## Requests in the list -/

/-- A request that has not been sent -/
def Unsent (req : MwStorageReq) : Prop := req.action = .save ∨ req.action = .load

/-- A request in the list of the service, by the log -/
def Stands (req : MwStorageReq) (log : List StorageEvent) : Prop :=
  ∃ made, .issue made ∈ log ∧ SameRequest made req ∧ Unsent made ∧
    (req.action = made.action ∨ req.action = made.action.sent)

theorem SameRequest.trans {a b c : MwStorageReq} (hab : SameRequest a b) (hbc : SameRequest b c) :
    SameRequest a c := by
  unfold SameRequest at *
  grind

theorem SameRequest.symm {a b : MwStorageReq} (h : SameRequest a b) : SameRequest b a := by
  unfold SameRequest at *
  grind

/-- What has been sent is not to be sent. -/
theorem Unsent.not_sent (req : MwStorageReq) : ¬ Unsent { req with action := req.action.sent } := by
  cases h : req.action <;> simp [Unsent, StorageAction.sent]

theorem Unsent.of_sent {req req' : MwStorageReq} (h : Unsent req')
    (haction : req'.action = req.action ∨ req'.action = req.action.sent) : Unsent req := by
  rcases haction with haction | haction
  · simpa [Unsent, haction] using h
  · exact absurd (by simpa [Unsent, haction] using h) (Unsent.not_sent req)

theorem Stands.trans {req req' : MwStorageReq} {log : List StorageEvent} (h : Stands req log)
    (hsame : SameRequest req req')
    (haction : req'.action = req.action ∨ req'.action = req.action.sent) : Stands req' log := by
  obtain ⟨made, hmade, hsame', hunsent, haction'⟩ := h
  refine ⟨made, hmade, hsame'.trans hsame, hunsent, ?_⟩
  rcases haction' with haction' | haction' <;> rcases haction with haction | haction <;>
    rw [haction, haction']
  · exact .inl rfl
  · exact .inr rfl
  · exact .inr rfl
  · exact .inr (by rcases hunsent with hunsent | hunsent <;> rw [hunsent] <;> rfl)

theorem Stands.cons {req : MwStorageReq} {log : List StorageEvent} (h : Stands req log)
    (e : StorageEvent) : Stands req (e :: log) := by
  obtain ⟨made, hmade, hsame⟩ := h
  exact ⟨made, List.mem_cons_of_mem e hmade, hsame⟩

/-! ## Freeing -/

/-- What freeing requests one after the other records -/
def frees (reqs : List MwStorageReq) : List StorageEvent :=
  ((reqs.filter (·.dataFree.isSome)).map .free).reverse

theorem frees_cons (req : MwStorageReq) (reqs : List MwStorageReq) :
    frees (req :: reqs) = frees reqs ++ frees [req] := by
  simp only [frees, List.filter_cons, List.filter_nil]
  split <;> simp

theorem requestFree_eq (s : MwServiceStorage) (req : MwStorageReq) :
    requestFree s req = { s with log := frees [req] ++ s.log } := by
  unfold requestFree frees
  split <;> simp [*, record]

theorem foldl_requestFree (reqs : List MwStorageReq) (s : MwServiceStorage) :
    reqs.foldl requestFree s = { s with log := frees reqs ++ s.log } := by
  induction reqs generalizing s with
  | nil => rfl
  | cons req reqs ih =>
    rw [List.foldl_cons, ih, requestFree_eq, frees_cons req reqs, List.append_assoc]

theorem mem_frees {e : StorageEvent} {reqs : List MwStorageReq} :
    e ∈ frees reqs ↔ ∃ req ∈ reqs, req.dataFree.isSome ∧ e = .free req := by
  simp only [frees, List.mem_reverse, List.mem_map, List.mem_filter]
  constructor
  · rintro ⟨req, ⟨hreq, hdf⟩, rfl⟩
    exact ⟨req, hreq, hdf, rfl⟩
  · rintro ⟨req, hreq, hdf, rfl⟩
    exact ⟨req, ⟨hreq, hdf⟩, rfl⟩

theorem issue_mem_frees {made : MwStorageReq} {reqs : List MwStorageReq}
    {log : List StorageEvent} : .issue made ∈ frees reqs ++ log ↔ .issue made ∈ log := by
  simp [mem_frees]

theorem issued_frees (reqs : List MwStorageReq) (log : List StorageEvent) :
    issued (frees reqs ++ log) = issued log := by
  have hnil : (frees reqs).filterMap (fun
      | .issue req => some req.addr
      | _ => none) = [] := by
    refine List.filterMap_eq_nil_iff.mpr fun e he => ?_
    obtain ⟨req, -, -, rfl⟩ := mem_frees.mp he
    rfl
  rw [issued, List.filterMap_append, hnil, List.nil_append, issued]

theorem called_frees (reqs : List MwStorageReq) (log : List StorageEvent) :
    called (frees reqs ++ log) = called log := by
  have hnil : called (frees reqs) = [] := by
    refine List.filterMap_eq_nil_iff.mpr fun e he => ?_
    obtain ⟨req, -, -, rfl⟩ := mem_frees.mp he
    rfl
  rw [called, List.filterMap_append, ← called, hnil, List.nil_append, called]

theorem mem_freed_frees {addr : Nat} {reqs : List MwStorageReq} {log : List StorageEvent} :
    addr ∈ freed (frees reqs ++ log) ↔
      (∃ req ∈ reqs, req.dataFree.isSome ∧ req.addr = addr) ∨ addr ∈ freed log := by
  simp [freed, frees, and_assoc]

theorem sinceStop_frees (reqs : List MwStorageReq) (log : List StorageEvent) :
    sinceStop (frees reqs ++ log) = sinceStop log := by
  have hfree : ∀ l : List StorageEvent, (∀ e ∈ l, ∃ req, e = .free req) →
      sinceStop (l ++ log) = sinceStop log := by
    intro l hl
    induction l with
    | nil => rfl
    | cons e l ih =>
      obtain ⟨req, rfl⟩ := hl e List.mem_cons_self
      exact ih fun e he => hl e (List.mem_cons_of_mem _ he)
  refine hfree _ fun e he => ?_
  obtain ⟨req, -, -, rfl⟩ := mem_frees.mp he
  exact ⟨req, rfl⟩

/-- Each of some requests may be freed when none has been before. -/
theorem justified_frees {log : List StorageEvent} (hdue : Justified Due log)
    {reqs : List MwStorageReq} (hnodup : (reqs.map (·.addr)).Nodup)
    (hmade : ∀ req ∈ reqs, ∃ made, .issue made ∈ log ∧ SameRequest made req)
    (hunfreed : ∀ req ∈ reqs, req.addr ∉ freed log) : Justified Due (frees reqs ++ log) := by
  induction reqs generalizing log with
  | nil => exact hdue
  | cons req reqs ih =>
    obtain ⟨hreq, hnodup⟩ := List.nodup_cons.mp hnodup
    rw [frees_cons, List.append_assoc]
    refine ih ?_ hnodup ?_ ?_
    · by_cases hdf : req.dataFree.isSome = true
      · simp only [Storage.frees, List.filter_cons, hdf, if_true, List.filter_nil]
        exact .cons ⟨hmade req List.mem_cons_self, hunfreed req List.mem_cons_self⟩ hdue
      · simpa [Storage.frees, hdf] using hdue
    · intro r hr
      obtain ⟨made, hmade, hsame⟩ := hmade r (List.mem_cons_of_mem _ hr)
      exact ⟨made, List.mem_append_right _ hmade, hsame⟩
    · intro r hr hfreed
      rcases mem_freed_frees.mp hfreed with ⟨r', hr', -, haddr⟩ | hfreed
      · obtain rfl := List.mem_singleton.mp hr'
        exact hreq (List.mem_map.mpr ⟨r, hr, haddr.symm⟩)
      · exact hunfreed r (List.mem_cons_of_mem _ hr) hfreed

/-! ## The ledger -/

/-- The requests of the service, its counters, its log and what it has written. `busy`
is the request whose callback is running. -/
structure Ledger (busy : Option Nat) (s : MwServiceStorage) (wire : List (Packet StorageMessage)) :
    Prop where
  issued : issued s.log = List.range s.nextReq
  due : Justified Due s.log
  stands : ∀ req ∈ s.pending, Stands req s.log
  addrs : (s.pending.map (·.addr)).Pairwise (· < ·)
  addrs_lt : ∀ req ∈ s.pending, req.addr < s.nextReq
  ids : (s.pending.map (·.id.toNat)).Pairwise (· < ·)
  ids_range : ∀ req ∈ s.pending, 0 < req.id.toNat ∧ req.id.toNat ≤ s.idCounter.toNat
  counter : s.idCounter.toNat = sinceStop s.log
  uncalled : ∀ req ∈ s.pending, busy ≠ some req.addr → req.addr ∉ called s.log
  called_lt : ∀ addr ∈ called s.log, addr < s.nextReq
  unfreed : ∀ req ∈ s.pending, req.addr ∉ freed s.log
  freed_lt : ∀ addr ∈ freed s.log, addr < s.nextReq
  owed : ∀ made, .issue made ∈ s.log → made.dataFree.isSome →
    made.addr ∈ freed s.log ∨ ∃ req ∈ s.pending, SameRequest made req
  sorted : (written wire).Pairwise (· < ·)
  written_lt : ∀ addr ∈ written wire, addr < s.nextReq
  unsent : ∀ req ∈ s.pending, Unsent req → ∀ addr ∈ written wire, addr < req.addr

namespace Ledger

variable {busy : Option Nat} {s : MwServiceStorage} {wire : List (Packet StorageMessage)}

theorem eq_of_addr (hl : Ledger busy s wire) {req req' : MwStorageReq} (hreq : req ∈ s.pending)
    (hreq' : req' ∈ s.pending) (haddr : req.addr = req'.addr) : req = req' := by
  have hnodup : (s.pending.map (·.addr)).Nodup := hl.addrs.imp fun h => h.ne
  exact List.inj_on_of_nodup_map hnodup hreq hreq' haddr

theorem new : Ledger none {} [] where
  issued := rfl
  due := .nil
  stands := by simp
  addrs := List.Pairwise.nil
  addrs_lt := by simp
  ids := List.Pairwise.nil
  ids_range := by simp
  counter := rfl
  uncalled := by simp
  called_lt := by simp [called]
  unfreed := by simp
  freed_lt := by simp [freed]
  owed := by simp
  sorted := List.Pairwise.nil
  written_lt := by simp [written]
  unsent := by simp

theorem received (hl : Ledger busy s wire) (current : Option Nat) (chan : Nat) (type : UInt16)
    (data : MwOpaque) : Ledger busy (record s (.recv current chan type data)) wire :=
  { hl with
    due := .cons trivial hl.due
    stands := fun req hreq => (hl.stands req hreq).cons _
    owed := fun made hmade => hl.owed made (by simpa [record] using hmade) }

/-- A new request at the end of the list -/
theorem requestNew (hl : Ledger busy s wire) {action : StorageAction}
    (haction : action = .save ∨ action = .load) (item : MwStorageUnit) (cb : Option Nat)
    (data : Nat) (dataFree : Option Nat) (hfew : sinceStop s.log + 1 < 2 ^ 32) :
    Ledger busy
      { (requestNew s action item cb data dataFree).2 with
        pending := s.pending ++ [(requestNew s action item cb data dataFree).1] } wire := by
  have hcounter : (s.idCounter + 1).toNat = s.idCounter.toNat + 1 := by
    rw [UInt32.toNat_add, show UInt32.toNat 1 = 1 from rfl, hl.counter, Nat.mod_eq_of_lt hfew]
  exact
    { issued := by
        simp [Storage.requestNew, record, hl.issued, List.range_succ]
      due := .cons trivial hl.due
      stands := by
        intro req hreq
        rcases List.mem_append.mp hreq with hreq | hreq
        · exact (hl.stands req hreq).cons _
        · obtain rfl := List.mem_singleton.mp hreq
          exact ⟨_, List.mem_cons_self, ⟨rfl, rfl, rfl, rfl, rfl⟩, haction, .inl rfl⟩
      addrs := by
        simp only [Storage.requestNew, List.map_append, List.map_cons, List.map_nil]
        refine List.pairwise_append.mpr ⟨hl.addrs, List.pairwise_singleton _ _, ?_⟩
        intro a ha b hb
        obtain ⟨req, hreq, rfl⟩ := List.mem_map.mp ha
        obtain rfl := List.mem_singleton.mp hb
        exact hl.addrs_lt req hreq
      addrs_lt := by
        intro req hreq
        rcases List.mem_append.mp hreq with hreq | hreq
        · exact Nat.lt_succ_of_lt (hl.addrs_lt req hreq)
        · obtain rfl := List.mem_singleton.mp hreq
          exact Nat.lt_succ_self _
      ids := by
        simp only [Storage.requestNew, List.map_append, List.map_cons, List.map_nil]
        refine List.pairwise_append.mpr ⟨hl.ids, List.pairwise_singleton _ _, ?_⟩
        intro a ha b hb
        obtain ⟨req, hreq, rfl⟩ := List.mem_map.mp ha
        obtain rfl := List.mem_singleton.mp hb
        rw [hcounter]
        exact Nat.lt_succ_of_le (hl.ids_range req hreq).2
      ids_range := by
        intro req hreq
        simp only [Storage.requestNew, record, hcounter]
        rcases List.mem_append.mp hreq with hreq | hreq
        · have := hl.ids_range req hreq
          omega
        · obtain rfl := List.mem_singleton.mp hreq
          simp only [Storage.requestNew, hcounter]
          omega
      counter := by
        simp only [Storage.requestNew, record, sinceStop]
        rw [hcounter, hl.counter]
      uncalled := by
        intro req hreq hbusy
        rcases List.mem_append.mp hreq with hreq | hreq
        · exact hl.uncalled req hreq hbusy
        · obtain rfl := List.mem_singleton.mp hreq
          exact fun hmem => Nat.lt_irrefl _ (hl.called_lt _ hmem)
      called_lt := fun addr haddr => Nat.lt_succ_of_lt (hl.called_lt addr haddr)
      unfreed := by
        intro req hreq
        rcases List.mem_append.mp hreq with hreq | hreq
        · exact hl.unfreed req hreq
        · obtain rfl := List.mem_singleton.mp hreq
          exact fun hmem => Nat.lt_irrefl _ (hl.freed_lt _ hmem)
      freed_lt := fun addr haddr => Nat.lt_succ_of_lt (hl.freed_lt addr haddr)
      owed := by
        intro made hmade hdf
        rcases List.mem_cons.mp hmade with hmade | hmade
        · cases hmade
          exact .inr ⟨_, List.mem_append_right _ List.mem_cons_self, rfl, rfl, rfl, rfl, rfl⟩
        · rcases hl.owed made hmade hdf with hfreed | ⟨req, hreq, hsame⟩
          · exact .inl hfreed
          · exact .inr ⟨req, List.mem_append_left _ hreq, hsame⟩
      sorted := hl.sorted
      written_lt := fun addr haddr => Nat.lt_succ_of_lt (hl.written_lt addr haddr)
      unsent := by
        intro req hreq hunsent
        rcases List.mem_append.mp hreq with hreq | hreq
        · exact hl.unsent req hreq hunsent
        · obtain rfl := List.mem_singleton.mp hreq
          exact hl.written_lt }

/-- Requests changed in place, each to the same request, sent or not -/
theorem update (hl : Ledger busy s wire) (addr : Nat) {f : MwStorageReq → MwStorageReq}
    (hf : ∀ req ∈ s.pending, req.addr = addr → SameRequest req (f req) ∧
      ((f req).action = req.action ∨ (f req).action = req.action.sent)) :
    Ledger busy (update s addr f) wire := by
  have hg : ∀ req ∈ s.pending, SameRequest req (if req.addr = addr then f req else req) ∧
      ((if req.addr = addr then f req else req).action = req.action ∨
        (if req.addr = addr then f req else req).action = req.action.sent) := by
    intro req hreq
    split
    · exact hf req hreq ‹_›
    · exact ⟨⟨rfl, rfl, rfl, rfl, rfl⟩, .inl rfl⟩
  -- only the fields that speak of the pending requests see a change
  have hmem : ∀ {P : MwStorageReq → Prop},
      (∀ req ∈ s.pending, ∀ req', SameRequest req req' →
        (req'.action = req.action ∨ req'.action = req.action.sent) → P req') →
      ∀ req' ∈ (Storage.update s addr f).pending, P req' := by
    intro P hP req' hreq'
    obtain ⟨req, hreq, rfl⟩ := List.mem_map.mp hreq'
    exact hP req hreq _ (hg req hreq).1 (hg req hreq).2
  have haddrs : (Storage.update s addr f).pending.map (·.addr) = s.pending.map (·.addr) := by
    rw [Storage.update, List.map_map]
    exact List.map_congr_left fun req hreq => (hg req hreq).1.1.symm
  have hids : (Storage.update s addr f).pending.map (·.id.toNat) = s.pending.map (·.id.toNat) := by
    rw [Storage.update, List.map_map]
    exact List.map_congr_left fun req hreq => congrArg UInt32.toNat (hg req hreq).1.2.1.symm
  exact
    { hl with
      stands := hmem fun req hreq req' hsame haction => (hl.stands req hreq).trans hsame haction
      addrs := haddrs ▸ hl.addrs
      addrs_lt := hmem fun req hreq req' hsame _ => hsame.1 ▸ hl.addrs_lt req hreq
      ids := hids ▸ hl.ids
      ids_range := hmem fun req hreq req' hsame _ => hsame.2.1 ▸ hl.ids_range req hreq
      uncalled := hmem fun req hreq req' hsame _ => hsame.1 ▸ hl.uncalled req hreq
      unfreed := hmem fun req hreq req' hsame _ => hsame.1 ▸ hl.unfreed req hreq
      owed := by
        intro made hmade hdf
        rcases hl.owed made hmade hdf with hfreed | ⟨req, hreq, hsame⟩
        · exact .inl hfreed
        · exact .inr ⟨_, List.mem_map_of_mem hreq, hsame.trans (hg req hreq).1⟩
      unsent := hmem fun req hreq req' hsame haction hunsent =>
        hsame.1 ▸ hl.unsent req hreq (hunsent.of_sent haction) }

/-- A request written that comes before all that are still to be sent -/
theorem wrote (hl : Ledger busy s wire) {chan : Nat} {msg : StorageMessage}
    (hlt : msg.req < s.nextReq) (hwritten : ∀ addr ∈ written wire, addr < msg.req)
    (hunsent : ∀ req ∈ s.pending, Unsent req → msg.req < req.addr) :
    Ledger busy s (wire ++ [.send chan msg]) := by
  have hmem : ∀ addr ∈ written (wire ++ [.send chan msg]),
      addr ∈ written wire ∨ addr = msg.req := by
    intro addr haddr
    simpa using haddr
  exact
    { hl with
      sorted := by
        rw [written_append, written_send]
        refine List.pairwise_append.mpr ⟨hl.sorted, List.pairwise_singleton _ _, ?_⟩
        intro a ha b hb
        obtain rfl := List.mem_singleton.mp hb
        exact hwritten a ha
      written_lt := fun addr haddr => by
        rcases hmem addr haddr with haddr | rfl
        · exact hl.written_lt addr haddr
        · exact hlt
      unsent := fun req hreq hreq' addr haddr => by
        rcases hmem addr haddr with haddr | rfl
        · exact hl.unsent req hreq hreq' addr haddr
        · exact hunsent req hreq hreq' }

/-- The first request to be sent is sent. -/
theorem sent (hl : Ledger busy s wire) {pre post : List MwStorageReq} {req : MwStorageReq}
    (hsplit : s.pending = pre ++ req :: post) (hpre : ∀ r ∈ pre, ¬ Unsent r)
    (hreq : Unsent req) (chan : Nat) :
    Ledger busy (Storage.update s req.addr fun req => { req with action := req.action.sent })
      (wire ++ [.send chan (requestMessage req)]) := by
  have hmem : req ∈ s.pending := by simp [hsplit]
  have hupdate := hl.update req.addr
    (f := fun req => { req with action := req.action.sent })
    fun _ _ _ => ⟨⟨rfl, rfl, rfl, rfl, rfl⟩, .inr rfl⟩
  refine hupdate.wrote (hl.addrs_lt req hmem) (hl.unsent req hmem hreq) ?_
  -- what is to be sent still comes later in the list, and so has a later address
  intro r' hr' hunsent
  obtain ⟨r, hr, heq⟩ := List.mem_map.mp hr'
  subst heq
  have hsorted := hl.addrs
  rw [hsplit, List.map_append, List.map_cons, List.pairwise_append] at hsorted
  rw [hsplit] at hr
  rcases List.mem_append.mp hr with hr | hr
  · refine absurd ?_ (hpre r hr)
    split at hunsent
    · exact absurd hunsent (Unsent.not_sent _)
    · exact hunsent
  · rcases List.mem_cons.mp hr with rfl | hr
    · rw [if_pos rfl] at hunsent
      exact absurd hunsent (Unsent.not_sent _)
    · have hlt : req.addr < r.addr :=
        (List.pairwise_cons.mp hsorted.2.1).1 r.addr (List.mem_map_of_mem hr)
      rw [if_neg hlt.ne']
      exact hlt

theorem callback (hl : Ledger none s wire) {req : MwStorageReq} (hreq : req ∈ s.pending)
    (hanswers : Answers req s.log) :
    Ledger (some req.addr) (record s (.callback req)) wire :=
  { hl with
    due := .cons ⟨hanswers, hl.uncalled req hreq nofun, hl.unfreed req hreq⟩ hl.due
    stands := fun r hr => (hl.stands r hr).cons _
    uncalled := by
      intro r hr hbusy hmem
      rcases List.mem_cons.mp (show r.addr ∈ req.addr :: called s.log from hmem) with heq | hmem
      · exact hbusy (heq ▸ rfl)
      · exact hl.uncalled r hr nofun hmem
    called_lt := by
      intro addr haddr
      rcases List.mem_cons.mp (show addr ∈ req.addr :: called s.log from haddr) with rfl | haddr
      · exact hl.addrs_lt req hreq
      · exact hl.called_lt addr haddr
    owed := fun made hmade => hl.owed made (by simpa [record] using hmade) }

/-- Requests freed and taken off the list -/
theorem release (hl : Ledger busy s wire) (reqs : List MwStorageReq)
    (hreqs : ∀ r ∈ reqs, ∃ req ∈ s.pending, SameRequest req r)
    (hnodup : (reqs.map (·.addr)).Nodup)
    (hbusy : ∀ addr, busy = some addr → addr ∈ reqs.map (·.addr)) :
    Ledger none
      { s with
        pending := s.pending.filter fun req => req.addr ∉ reqs.map (·.addr)
        log := frees reqs ++ s.log } wire := by
  have hmem : ∀ req ∈ s.pending.filter (fun req => req.addr ∉ reqs.map (·.addr)),
      req ∈ s.pending ∧ req.addr ∉ reqs.map (·.addr) := by
    intro req hreq
    simpa using List.mem_filter.mp hreq
  have hsub : (s.pending.filter fun req => req.addr ∉ reqs.map (·.addr)).Sublist s.pending :=
    List.filter_sublist
  have hnew : ∀ r ∈ reqs, r.addr ∉ freed s.log := by
    intro r hr
    obtain ⟨req, hreq, hsame⟩ := hreqs r hr
    exact hsame.1 ▸ hl.unfreed req hreq
  exact
    { hl with
      issued := by
        rw [← hl.issued]
        exact issued_frees reqs s.log
      due := by
        refine justified_frees hl.due hnodup ?_ hnew
        intro r hr
        obtain ⟨req, hreq, hsame⟩ := hreqs r hr
        obtain ⟨made, hmade, hsame', -, -⟩ := hl.stands req hreq
        exact ⟨made, hmade, hsame'.trans hsame⟩
      stands := by
        intro req hreq
        obtain ⟨made, hmade, hstands⟩ := hl.stands req (hmem req hreq).1
        exact ⟨made, List.mem_append_right _ hmade, hstands⟩
      addrs := hl.addrs.sublist (hsub.map _)
      addrs_lt := fun req hreq => hl.addrs_lt req (hmem req hreq).1
      ids := hl.ids.sublist (hsub.map _)
      ids_range := fun req hreq => hl.ids_range req (hmem req hreq).1
      counter := hl.counter.trans (sinceStop_frees reqs s.log).symm
      uncalled := by
        intro req hreq _
        rw [called_frees]
        exact hl.uncalled req (hmem req hreq).1 fun h => (hmem req hreq).2 (hbusy _ h)
      called_lt := fun addr haddr => hl.called_lt addr (called_frees reqs s.log ▸ haddr)
      unfreed := by
        intro req hreq hfreed
        rcases mem_freed_frees.mp hfreed with ⟨r, hr, -, haddr⟩ | hfreed
        · exact (hmem req hreq).2 (haddr ▸ List.mem_map_of_mem hr)
        · exact hl.unfreed req (hmem req hreq).1 hfreed
      freed_lt := by
        intro addr haddr
        rcases mem_freed_frees.mp haddr with ⟨r, hr, -, rfl⟩ | haddr
        · obtain ⟨req, hreq, hsame⟩ := hreqs r hr
          exact hsame.1 ▸ hl.addrs_lt req hreq
        · exact hl.freed_lt addr haddr
      owed := by
        intro made hmade hdf
        rcases hl.owed made (issue_mem_frees.mp hmade) hdf with hfreed | ⟨req, hreq, hsame⟩
        · exact .inl (mem_freed_frees.mpr (.inr hfreed))
        · by_cases hin : req.addr ∈ reqs.map (·.addr)
          · obtain ⟨r, hr, haddr⟩ := List.mem_map.mp hin
            obtain ⟨req', hreq', hsame'⟩ := hreqs r hr
            -- two requests of the list under one address are one
            obtain rfl : req' = req :=
              hl.eq_of_addr hreq' hreq (hsame'.1.trans haddr)
            have hall := hsame.trans hsame'
            exact .inl (mem_freed_frees.mpr
              (.inl ⟨r, hr, hall.2.2.2.2 ▸ hdf, hall.1.symm⟩))
          · exact .inr ⟨req, List.mem_filter.mpr ⟨hreq, by simpa using hin⟩, hsame⟩
      unsent := fun req hreq => hl.unsent req (hmem req hreq).1 }

theorem requestRemove (hl : Ledger busy s wire) {req r : MwStorageReq} (hr : r ∈ s.pending)
    (hsame : SameRequest r req) (hbusy : busy = none ∨ busy = some req.addr) :
    Ledger none (requestRemove s req) wire := by
  have hrelease := hl.release [req] (by simpa using ⟨r, hr, hsame⟩) (by simp)
    (by rcases hbusy with rfl | rfl <;> simp)
  simp only [List.map_cons, List.map_nil, List.mem_singleton] at hrelease
  rwa [Storage.requestRemove, requestFree_eq]

/-- All requests freed at the end of `stop` and `clear` -/
theorem freePending (hl : Ledger none s wire) {e : StorageEvent} (he : e = .stop ∨ e = .clear) :
    Ledger none (record (freePending s) e) wire := by
  have hnodup : (s.pending.map (·.addr)).Nodup := hl.addrs.imp fun h => h.ne
  have hrelease := hl.release s.pending
    (fun r hr => ⟨r, hr, rfl, rfl, rfl, rfl, rfl⟩) hnodup nofun
  have hnil : s.pending.filter (fun req => req.addr ∉ s.pending.map (·.addr)) = [] := by
    refine List.filter_eq_nil_iff.mpr fun req hreq => ?_
    simpa using ⟨req, hreq, rfl⟩
  rw [hnil] at hrelease
  have hfree : ∀ made, .issue made ∈ frees s.pending ++ s.log → made.dataFree.isSome →
      made.addr ∈ freed (frees s.pending ++ s.log) := by
    intro made hmade hdf
    rcases hrelease.owed made hmade hdf with hfreed | ⟨req, hreq, -⟩
    · exact hfreed
    · cases hreq
  rw [Storage.freePending, foldl_requestFree]
  rcases he with rfl | rfl
  · exact
      { hrelease with
        due := .cons hfree hrelease.due
        stands := nofun
        ids_range := nofun
        counter := rfl
        owed := fun made hmade hdf => .inl (hfree made (by simpa [record] using hmade) hdf) }
  · exact
      { hrelease with
        due := .cons hfree hrelease.due
        stands := nofun
        ids_range := nofun
        counter := rfl
        owed := fun made hmade hdf => .inl (hfree made (by simpa [record] using hmade) hdf) }

end Ledger

/-! ## Responses -/

theorem itemGet_of_ok {count : UInt32} {req : MwStorageReq} {b : GetBuffer}
    (h : (itemGet count req b).2.error = false) : b.error = false := by
  unfold itemGet at h
  split at h
  · rw [Get.bind_apply, Get.ite_apply] at h
    split at h
    · exact (guint32Get_of_ok h).1
    · have h₃ := (guint32Get_of_ok (mwOpaqueGet_of_ok h)).1
      exact (guint32Get_of_ok (guint32Get_of_ok h₃).1).1
  · exact h

theorem requestGet_same (count : UInt32) (req : MwStorageReq) (b : GetBuffer) :
    SameRequest req (requestGet count req b).1 ∧
      (requestGet count req b).1.action = req.action := by
  unfold requestGet SameRequest
  rw [mwGetBufferError_bind, Get.ite_apply]
  split
  · exact ⟨⟨rfl, rfl, rfl, rfl, rfl⟩, rfl⟩
  · exact ⟨⟨rfl, rfl, rfl, rfl, rfl⟩, rfl⟩

/-- A response that is read without an error begins with two words. -/
theorem requestGet_of_ok {count : UInt32} {req : MwStorageReq} {data : MwOpaque}
    (h : (requestGet count req (.wrapOpaque data)).2.error = false) :
    8 ≤ data.length ∧ (∀ beyond, guint32Peek (.wrapOpaque data) beyond = word 0 data) ∧
      word 4 data = (requestGet count req (.wrapOpaque data)).1.resultCode := by
  have heq : requestGet count req (.wrapOpaque data) =
      (do
        let _ ← guint32Get 0
        let resultCode ← guint32Get req.resultCode
        let item ← itemGet count req
        return { req with resultCode := resultCode, item := item } : Get MwStorageReq)
        (.wrapOpaque data) := rfl
  rw [heq] at h ⊢
  -- no error at the end, so none after the second word
  have h₂ : (guint32Get req.resultCode (guint32Get 0 (.wrapOpaque data)).2).2.error = false :=
    itemGet_of_ok h
  obtain ⟨h₁, hrem₂, hget₂⟩ := guint32Get_of_ok h₂
  obtain ⟨-, hrem₁, hget₁⟩ := guint32Get_of_ok h₁
  rw [hget₁] at hrem₂ hget₂
  simp only [GetBuffer.wrapOpaque, GetBuffer.skip] at hrem₁ hrem₂
  refine ⟨by omega, ?_, ?_⟩
  · simp [guint32Peek, GetBuffer.wrapOpaque, word, hrem₁]
  · simp only [Get.bind_apply, hget₁, hget₂, Get.pure_apply]
    refine mw32Get_of_length ?_ _ _
    rw [List.length_drop]
    omega

end Meanwhile.Storage
