import Mathlib.Data.List.Basic
import Mlx5Netperf.Base.Mbuf

/-!
# The Server Loop

The inner loop of `do_server` over one burst of received packets, as the calls
it makes: the accepted packets are collected into batches, a batch goes to
`process_server_requests` when it is full or when the accepted packet was the
last of the burst, and the packets are freed afterwards. A rejected packet is
freed with an early `continue`, which skips the test for a full or last batch.
-/

/-! ## Lists in batches -/

namespace Batching

variable {α : Type*}

/-- The batches of `pending ++ xs`, where `pending` is a batch already begun. -/
def batchesFrom (n : ℕ) : List α → List α → List (List α)
  | pending, [] => if pending.isEmpty then [] else [pending]
  | pending, x :: xs =>
    if pending.length + 1 = n then (pending ++ [x]) :: batchesFrom n [] xs
    else batchesFrom n (pending ++ [x]) xs

/-- `xs` in batches of `n`. -/
def batches (n : ℕ) (xs : List α) : List (List α) := batchesFrom n [] xs

/-- Batching neither loses nor reorders anything. -/
theorem flatten_batchesFrom (n : ℕ) (pending xs : List α) :
    (batchesFrom n pending xs).flatten = pending ++ xs := by
  induction xs generalizing pending with
  | nil =>
    rw [batchesFrom]
    cases pending <;> simp
  | cons x xs ih =>
    rw [batchesFrom]
    split
    · rw [List.flatten_cons, ih, List.nil_append, List.append_assoc, List.singleton_append]
    · rw [ih, List.append_assoc, List.singleton_append]

@[simp] theorem flatten_batches (n : ℕ) (xs : List α) : (batches n xs).flatten = xs :=
  flatten_batchesFrom n [] xs

end Batching

namespace Mlx5Netperf

open Batching

/-! ## The calls of the loop -/

/-- The cleanup behind `process_server_requests`: after an error all packets are
freed and their entries nulled; outside echo mode all entries are freed again. -/
def cleanupBatch {σ : Type*} (free : σ → Option Addr → Option σ) (echoMode : Bool) (ret : Int32)
    (batch : List Addr) (s : σ) : Option σ :=
  let mbufsToProcess := batch.map some
  if ret ≠ 0 then
    (mbufsToProcess.foldlM free s).bind fun s =>
      let mbufsToProcess : List (Option Addr) := batch.map fun _ => none
      if echoMode then some s else mbufsToProcess.foldlM free s
  else if echoMode then some s else mbufsToProcess.foldlM free s

/-- What the loop does to the outside. -/
inductive ServerCall where
  /-- `process_server_requests` -/
  | processed (batch : List Addr)
  /-- `mbuf_free` -/
  | freed (m : Addr)
  deriving DecidableEq

/-- The batches passed to `process_server_requests`, in order. -/
def ServerCall.batches (calls : List ServerCall) : List (List Addr) :=
  calls.filterMap fun | .processed batch => some batch | .freed _ => none

/-- The mbufs freed, in order. -/
def ServerCall.frees (calls : List ServerCall) : List Addr :=
  calls.filterMap fun | .processed _ => none | .freed m => some m

namespace ServerCall

@[simp] theorem batches_append (t u : List ServerCall) :
    batches (t ++ u) = batches t ++ batches u := List.filterMap_append

@[simp] theorem frees_append (t u : List ServerCall) : frees (t ++ u) = frees t ++ frees u :=
  List.filterMap_append

@[simp] theorem batches_processed (batch : List Addr) (calls : List ServerCall) :
    batches (.processed batch :: calls) = batch :: batches calls := rfl

@[simp] theorem frees_processed (batch : List Addr) (calls : List ServerCall) :
    frees (.processed batch :: calls) = frees calls := rfl

@[simp] theorem batches_map_freed (ms : List Addr) : batches (ms.map .freed) = [] := by
  induction ms with
  | nil => rfl
  | cons m ms ih => exact ih

@[simp] theorem frees_map_freed (ms : List Addr) : frees (ms.map .freed) = ms := by
  induction ms with
  | nil => rfl
  | cons m ms ih => exact congrArg (m :: ·) ih

end ServerCall

/-- What the loop depends on: the batch size, the mode, the verdict of
`check_valid_packet` on each packet, and what `process_server_requests` returns. -/
structure ServerLoop where
  batchSize : ℕ
  echoMode : Bool
  valid : Addr → Bool
  result : List Addr → Int32

/-- `mbuf_free`; the null pointer is dereferenced. -/
def logFree (calls : List ServerCall) : Option Addr → Option (List ServerCall)
  | none => none
  | some m => some (calls ++ [.freed m])

namespace ServerLoop

variable (l : ServerLoop)

/-- A batch is processed and cleaned up after. -/
def flush (batch : List Addr) (calls : List ServerCall) : Option (List ServerCall) :=
  cleanupBatch logFree l.echoMode (l.result batch) batch (calls ++ [.processed batch])

/-- The loop over the rest of a burst, with the packets collected since the last
batch; `none` is a null pointer dereference. -/
def run : List Addr → List Addr → List ServerCall → Option (List ServerCall)
  | [], _, calls => some calls
  | pkt :: rest, batch, calls =>
    -- `continue`: the test below is skipped
    if l.valid pkt = false then run rest batch (calls ++ [.freed pkt])
    else
      let batch := batch ++ [pkt]
      if batch.length = l.batchSize ∨ rest = [] then
        (l.flush batch calls).bind fun calls => run rest [] calls
      else run rest batch calls

/-- The batches that the loop flushes, and the packets it is left with. -/
def flushes : List Addr → List Addr → List (List Addr) × List Addr
  | [], batch => ([], batch)
  | pkt :: rest, batch =>
    if l.valid pkt = false then flushes rest batch
    else
      let batch := batch ++ [pkt]
      if batch.length = l.batchSize ∨ rest = [] then
        (batch :: (flushes rest []).1, (flushes rest []).2)
      else flushes rest batch

/-- After the batch nothing is freed twice through a nulled entry. -/
def CleansUp (batch : List Addr) : Prop := l.echoMode = true ∨ l.result batch = 0

/-! ## Cleaning up -/

/-- Freeing packets logs them one by one. -/
theorem foldlM_logFree (ms : List Addr) (calls : List ServerCall) :
    (ms.map some).foldlM logFree calls = some (calls ++ ms.map .freed) := by
  induction ms generalizing calls with
  | nil => simp
  | cons m ms ih =>
    rw [List.map_cons, List.foldlM_cons, logFree, Option.bind_eq_bind, Option.bind_some, ih,
      List.map_cons, List.append_assoc, List.singleton_append]

/-- Freeing nulled entries fails. -/
theorem foldlM_logFree_none {batch : List Addr} (hne : batch ≠ []) (calls : List ServerCall) :
    (List.replicate batch.length (none : Option Addr)).foldlM logFree calls = none := by
  cases batch with
  | nil => exact absurd rfl hne
  | cons m ms => rfl

variable {l}

/-- A flush succeeds exactly when the batch is cleaned up, and then it processes
the batch and frees nothing but packets of it. -/
theorem flush_eq_some {batch : List Addr} (hne : batch ≠ []) {calls calls' : List ServerCall} :
    l.flush batch calls = some calls' ↔ l.CleansUp batch ∧
      calls' = calls ++ .processed batch ::
        if l.result batch = 0 ∧ l.echoMode = true then [] else batch.map .freed := by
  have hfreed := foldlM_logFree batch (calls ++ [.processed batch])
  have hnulled := foldlM_logFree_none hne
  -- outside echo mode a failure nulls the entries, and the second loop frees null
  by_cases hret : l.result batch = 0
  · cases hecho : l.echoMode with
    | true =>
      simp only [flush, cleanupBatch, CleansUp, hecho, hret, ne_eq, not_true_eq_false, if_false,
        if_true, true_or, true_and, and_self, Option.some.injEq, eq_comm]
    | false =>
      simp [flush, cleanupBatch, CleansUp, hecho, hret, hfreed, eq_comm]
  · cases hecho : l.echoMode with
    | true => simp [flush, cleanupBatch, CleansUp, hecho, hret, hfreed, eq_comm]
    | false => simp [flush, cleanupBatch, CleansUp, hecho, hret, hfreed, hnulled]

/-! ## What is flushed -/

/-- **The batches flushed**, and the packets left over as one more, are the
accepted packets in batches. -/
theorem flushes_append_leftover (hB : 0 < l.batchSize) (rest batch : List Addr)
    (hlt : batch.length < l.batchSize) :
    (l.flushes rest batch).1 ++
        (if (l.flushes rest batch).2.isEmpty then [] else [(l.flushes rest batch).2]) =
      batchesFrom l.batchSize batch (rest.filter l.valid) := by
  induction rest generalizing batch with
  | nil => simp [flushes, batchesFrom]
  | cons pkt rest ih =>
    rw [flushes]
    by_cases hvalid : l.valid pkt = false
    · rw [if_pos hvalid, List.filter_cons_of_neg (by simp [hvalid])]
      exact ih batch hlt
    · rw [if_neg hvalid, List.filter_cons_of_pos (by simpa using hvalid), batchesFrom]
      -- a full batch, the last packet, or neither
      by_cases hfull : batch.length + 1 = l.batchSize
      · simp only [List.length_append, List.length_singleton, hfull, true_or, if_true,
          List.cons_append, List.cons.injEq, true_and]
        exact ih [] hB
      · by_cases hend : rest = []
        · simp [hend, hfull, flushes, batchesFrom]
        · simp only [List.length_append, List.length_singleton, hfull, hend, or_self, if_false]
          exact ih (batch ++ [pkt]) (by simp only [List.length_append, List.length_singleton]; omega)

/-- **What is left over**: nothing, exactly when the last packet was accepted or
the accepted packets fill their batches. -/
theorem leftover_eq_nil_iff (hB : 0 < l.batchSize) (rest batch : List Addr)
    (hlt : batch.length < l.batchSize) :
    (l.flushes rest batch).2 = [] ↔
      (∃ last ∈ rest.getLast?, l.valid last = true) ∨
        (batch.length + (rest.filter l.valid).length) % l.batchSize = 0 := by
  induction rest generalizing batch with
  | nil =>
    simp only [flushes, List.getLast?_nil, Option.mem_def, reduceCtorEq, false_and, exists_false,
      List.filter_nil, List.length_nil, Nat.add_zero, Nat.mod_eq_of_lt hlt, false_or,
      List.length_eq_zero_iff]
  | cons pkt rest ih =>
    rw [flushes]
    by_cases hvalid : l.valid pkt = false
    · rw [if_pos hvalid, ih batch hlt, List.filter_cons_of_neg (by simp [hvalid])]
      cases rest with
      | nil => simp [hvalid]
      | cons next rest => rw [List.getLast?_cons_cons]
    -- an accepted last packet flushes whatever was collected
    · have hlast : rest = [] → ∃ last ∈ (pkt :: rest).getLast?, l.valid last = true := by
        rintro rfl
        exact ⟨pkt, by simp, by simpa using hvalid⟩
      have hmore : rest ≠ [] → (pkt :: rest).getLast? = rest.getLast? := by
        intro hne
        obtain ⟨next, rest', rfl⟩ := List.exists_cons_of_ne_nil hne
        rw [List.getLast?_cons_cons]
      rw [if_neg hvalid, List.filter_cons_of_pos (by simpa using hvalid), List.length_cons]
      by_cases hend : rest = []
      · rw [if_pos (.inr hend)]
        exact iff_of_true (by simp [hend, flushes]) (.inl (hlast hend))
      · rw [hmore hend]
        by_cases hfull : batch.length + 1 = l.batchSize
        -- a flush takes a whole batch off the count
        · rw [if_pos (.inl (by simpa using hfull)), ih [] hB, List.length_nil, Nat.zero_add,
            show batch.length + ((rest.filter l.valid).length + 1) =
              (rest.filter l.valid).length + l.batchSize by omega, Nat.add_mod_right]
        · rw [if_neg (by simp [hfull, hend]), ih (batch ++ [pkt]) (by simp; omega),
            List.length_append, List.length_singleton,
            show batch.length + 1 + (rest.filter l.valid).length =
              batch.length + ((rest.filter l.valid).length + 1) by omega]

/-! ## Runs over a burst -/

/-- A run that gets through cleaned up after every batch. -/
theorem cleansUp_of_run {rest batch : List Addr} {calls calls' : List ServerCall}
    (h : l.run rest batch calls = some calls') :
    ∀ b ∈ (l.flushes rest batch).1, l.CleansUp b := by
  induction rest generalizing batch calls with
  | nil => simp [flushes]
  | cons pkt rest ih =>
    rw [run] at h
    rw [flushes]
    by_cases hvalid : l.valid pkt = false
    · rw [if_pos hvalid] at h ⊢
      exact ih h
    · rw [if_neg hvalid] at h ⊢
      by_cases hflush : (batch ++ [pkt]).length = l.batchSize ∨ rest = []
      · rw [if_pos hflush] at h ⊢
        obtain ⟨calls₁, hcalls₁, hrest⟩ := Option.bind_eq_some_iff.mp h
        rintro b (_ | ⟨_, hb⟩)
        · exact ((flush_eq_some (by simp)).mp hcalls₁).1
        · exact ih hrest b hb
      · rw [if_neg hflush] at h ⊢
        exact ih h

/-- **A run that cleans up after every batch gets through**: it processes the
batches flushed, and frees every rejected packet once. -/
theorem run_of_cleansUp {rest batch : List Addr} (hbatch : ∀ m ∈ batch, l.valid m = true)
    (h : ∀ b ∈ (l.flushes rest batch).1, l.CleansUp b) (calls : List ServerCall) :
    ∃ tail, l.run rest batch calls = some (calls ++ tail) ∧
      ServerCall.batches tail = (l.flushes rest batch).1 ∧
      (ServerCall.frees tail).filter (fun m => !l.valid m) =
        rest.filter fun m => !l.valid m := by
  induction rest generalizing batch calls with
  | nil => exact ⟨[], by simp [run], rfl, rfl⟩
  | cons pkt rest ih =>
    rw [run]
    rw [flushes] at h ⊢
    by_cases hvalid : l.valid pkt = false
    · rw [if_pos hvalid] at h ⊢
      rw [if_pos hvalid]
      obtain ⟨tail, hrun, hbatches, hfrees⟩ := ih hbatch h (calls ++ [.freed pkt])
      -- a rejected packet is freed right away
      refine ⟨.freed pkt :: tail, by simp [hrun], hbatches, ?_⟩
      have hhead : ServerCall.frees (.freed pkt :: tail) = pkt :: ServerCall.frees tail := rfl
      rw [hhead, List.filter_cons_of_pos (by simp [hvalid]),
        List.filter_cons_of_pos (by simp [hvalid]), hfrees]
    · have hpkt : l.valid pkt = true := by simpa using hvalid
      have hvalids : ∀ m ∈ batch ++ [pkt], l.valid m = true := by
        intro m hm
        rcases List.mem_append.mp hm with hold | hnew
        · exact hbatch m hold
        · rw [List.mem_singleton.mp hnew, hpkt]
      rw [if_neg hvalid] at h ⊢
      rw [if_neg hvalid, List.filter_cons_of_neg (by simp [hpkt])]
      by_cases hflush : (batch ++ [pkt]).length = l.batchSize ∨ rest = []
      · rw [if_pos hflush] at h ⊢
        rw [if_pos hflush]
        have hclean := h (batch ++ [pkt]) (List.mem_cons_self ..)
        let frees : List ServerCall :=
          if l.result (batch ++ [pkt]) = 0 ∧ l.echoMode = true then []
          else (batch ++ [pkt]).map .freed
        have hcalls : l.flush (batch ++ [pkt]) calls =
            some (calls ++ .processed (batch ++ [pkt]) :: frees) :=
          (flush_eq_some (by simp)).mpr ⟨hclean, rfl⟩
        obtain ⟨tail, hrun, hbatches, hfrees⟩ := @ih [] (by simp)
          (fun b hb => h b (List.mem_cons_of_mem _ hb))
          (calls ++ .processed (batch ++ [pkt]) :: frees)
        have hnoBatch : ServerCall.batches frees = [] := by
          simp only [frees]
          split
          · rfl
          · exact ServerCall.batches_map_freed _
        -- the cleanup frees accepted packets only
        have hnoRejected : (ServerCall.frees frees).filter (fun m => !l.valid m) = [] := by
          simp only [frees]
          split
          · rfl
          · rw [ServerCall.frees_map_freed, List.filter_eq_nil_iff]
            exact fun m hm => by simp [hvalids m hm]
        refine ⟨.processed (batch ++ [pkt]) :: (frees ++ tail), ?_, ?_, ?_⟩
        · rw [hcalls, Option.bind_some, hrun, List.append_assoc, List.cons_append]
        · rw [ServerCall.batches_processed, ServerCall.batches_append, hnoBatch, hbatches,
            List.nil_append]
        · rw [ServerCall.frees_processed, ServerCall.frees_append, List.filter_append, hnoRejected,
            hfrees, List.nil_append]
      · rw [if_neg hflush] at h ⊢
        rw [if_neg hflush]
        exact ih hvalids h calls

/-- The calls of the loop handle every packet of the burst: the accepted ones are
processed once and in arrival order, the rejected ones freed once. -/
structure HandlesBurst (l : ServerLoop) (burst : List Addr) (calls : List ServerCall) : Prop where
  accepted : (ServerCall.batches calls).flatten = burst.filter l.valid
  rejected : (ServerCall.frees calls).filter (fun m => !l.valid m) =
    burst.filter fun m => !l.valid m

/-- **When no packet of a burst is lost**: the loop gets to the end of the burst
with every packet handled exactly when the last packet is accepted or the
accepted ones fill their batches, and no batch fails outside echo mode. -/
theorem burst_handled_iff (l : ServerLoop) (hB : 1 ≤ l.batchSize) (burst : List Addr) :
    (∃ calls, l.run burst [] [] = some calls ∧ HandlesBurst l burst calls) ↔
      ((∃ last ∈ burst.getLast?, l.valid last = true) ∨
        (burst.filter l.valid).length % l.batchSize = 0) ∧
      ∀ batch ∈ batches l.batchSize (burst.filter l.valid),
        l.echoMode = true ∨ l.result batch = 0 := by
  have hgroups := flushes_append_leftover hB burst [] hB
  have hleft := leftover_eq_nil_iff hB burst [] hB
  rw [List.length_nil, Nat.zero_add] at hleft
  rw [← hleft]
  constructor
  · rintro ⟨calls, hrun, haccepted, -⟩
    have hclean := cleansUp_of_run hrun
    -- the run is the one that cleans up
    obtain ⟨tail, hrun', hbatches, -⟩ := run_of_cleansUp (by simp) hclean []
    obtain rfl : calls = tail := by
      rw [hrun, List.nil_append] at hrun'
      exact Option.some.inj hrun'
    -- all accepted packets were in the batches flushed, so none is left over
    have hnil : (l.flushes burst []).2 = [] := by
      have hflat := congrArg List.flatten hgroups
      rw [flatten_batchesFrom, List.nil_append, ← haccepted, hbatches, List.flatten_append,
        List.append_right_eq_self] at hflat
      by_contra hne
      rw [if_neg (by simpa using hne)] at hflat
      exact hne (by simpa using hflat)
    refine ⟨hnil, fun batch hbatch => ?_⟩
    rw [hnil, List.isEmpty_nil, if_pos rfl, List.append_nil] at hgroups
    rw [batches, ← hgroups] at hbatch
    exact hclean batch hbatch
  · rintro ⟨hnil, hclean⟩
    rw [hnil, List.isEmpty_nil, if_pos rfl, List.append_nil] at hgroups
    rw [batches, ← hgroups] at hclean
    obtain ⟨tail, hrun, hbatches, hfrees⟩ := run_of_cleansUp (List.forall_mem_nil _) hclean []
    refine ⟨tail, by simpa using hrun, ?_, hfrees⟩
    rw [hbatches, hgroups, flatten_batchesFrom, List.nil_append]

/-- A loop with batches of 32 that rejects one packet. -/
def rejectsOne : ServerLoop where
  batchSize := 32
  echoMode := false
  valid := fun m => m ≠ 2
  result := fun _ => 0

/-- A burst of one batch, or one that ends with an accepted packet, is handled. -/
theorem burst_handled_accepted :
    ∃ calls, rejectsOne.run [2, 1] [] [] = some calls ∧ HandlesBurst rejectsOne [2, 1] calls :=
  (burst_handled_iff rejectsOne (by decide) [2, 1]).mpr ⟨by decide, by decide⟩

/-- With a rejected packet at the end of the burst the accepted one before it is lost. -/
theorem burst_lost_rejectedLast :
    ¬ ∀ (l : ServerLoop) (burst : List Addr), 1 ≤ l.batchSize → burst.Nodup →
      ∃ calls, l.run burst [] [] = some calls ∧ HandlesBurst l burst calls := by
  intro hclaim
  obtain ⟨calls, hrun, haccepted, -⟩ := hclaim rejectsOne [1, 2] (by decide) (by decide)
  have hcalls : rejectsOne.run [1, 2] [] [] = some [.freed 2] := by decide
  obtain rfl := Option.some.inj (hrun.symm.trans hcalls)
  exact absurd haccepted (by decide)

end ServerLoop

end Mlx5Netperf
