import Mathlib.Data.List.Basic
import Mathlib.Data.List.Range
import Mathlib.Data.List.Pairwise

/-!
# Byte Memory

A flat byte-addressed memory, stores of byte strings, and what a read finds
after a sequence of stores.

A program that only stores is described by the list of its stores. The list
keeps the footprint visible: two programs that leave the same bytes behind may
still differ in the addresses they touch.
-/

/-- A memory maps every address to a byte. -/
abbrev ByteMemory := ℕ → UInt8

namespace ByteMemory

/-- `n` bytes from address `a` on. -/
def read (m : ByteMemory) (a n : ℕ) : List UInt8 := (List.range n).map fun i => m (a + i)

/-- One store: a byte string and where it goes. -/
structure Store where
  addr : ℕ
  bytes : List UInt8

/-- Address `x` is written by the store. -/
def Store.Touches (s : Store) (x : ℕ) : Prop := s.addr ≤ x ∧ x < s.addr + s.bytes.length

/-- Two stores share no address. -/
def Store.Apart (s t : Store) : Prop :=
  s.addr + s.bytes.length ≤ t.addr ∨ t.addr + t.bytes.length ≤ s.addr

/-- The store shares no address with the `n` bytes from `a` on. -/
def Store.Misses (s : Store) (a n : ℕ) : Prop := s.addr + s.bytes.length ≤ a ∨ a + n ≤ s.addr

/-- The store stays within the `n` bytes from `a` on. -/
def Store.Within (s : Store) (a n : ℕ) : Prop := a ≤ s.addr ∧ s.addr + s.bytes.length ≤ a + n

/-- The `n` bytes from `a` on and the `k` bytes from `b` on share no address. -/
def RangesApart (a n b k : ℕ) : Prop := a + n ≤ b ∨ b + k ≤ a

theorem RangesApart.symm {a n b k : ℕ} (h : RangesApart a n b k) : RangesApart b k a n := Or.symm h

/-- Shorter ranges are apart as well. -/
theorem RangesApart.mono {a n n' b k k' : ℕ} (h : RangesApart a n b k) (hn : n' ≤ n)
    (hk : k' ≤ k) : RangesApart a n' b k' := by
  rcases h with hbefore | hafter
  · exact .inl (by omega)
  · exact .inr (by omega)

/-- A store within one range misses every range apart from it. -/
theorem Store.Within.misses {s : Store} {a n b k : ℕ} (h : s.Within a n)
    (hapart : RangesApart a n b k) : s.Misses b k := by
  obtain ⟨hlo, hhi⟩ := h
  rcases hapart with hbefore | hafter
  · exact .inl (hhi.trans hbefore)
  · exact .inr (hafter.trans hlo)

/-- Perform one store. -/
def store (m : ByteMemory) (s : Store) : ByteMemory := fun x =>
  if s.addr ≤ x then s.bytes.getD (x - s.addr) (m x) else m x

/-- Perform stores in order. -/
def stores (m : ByteMemory) (ss : List Store) : ByteMemory := ss.foldl store m

@[simp] theorem stores_nil (m : ByteMemory) : m.stores [] = m := rfl

@[simp] theorem stores_cons (m : ByteMemory) (s : Store) (ss : List Store) :
    m.stores (s :: ss) = (m.store s).stores ss := rfl

theorem stores_append (m : ByteMemory) (ss ts : List Store) :
    m.stores (ss ++ ts) = (m.stores ss).stores ts := List.foldl_append

@[simp] theorem length_read (m : ByteMemory) (a n : ℕ) : (m.read a n).length = n := by
  simp [read]

@[simp] theorem getElem_read (m : ByteMemory) (a n i : ℕ) (hi : i < (m.read a n).length) :
    (m.read a n)[i] = m (a + i) := by
  simp [read]

/-- A read splits into two neighbouring reads. -/
theorem read_add (m : ByteMemory) (a n k : ℕ) :
    m.read a (n + k) = m.read a n ++ m.read (a + n) k := by
  simp [read, List.range_add, Nat.add_assoc]

/-- Reads agree when the bytes they look at agree. -/
theorem read_congr {m m' : ByteMemory} {a n : ℕ}
    (h : ∀ x, a ≤ x → x < a + n → m' x = m x) : m'.read a n = m.read a n := by
  refine List.map_congr_left fun i hi => ?_
  rw [List.mem_range] at hi
  exact h (a + i) (by omega) (by omega)

/-- What stores leave at an address depends on nothing but what was there before. -/
theorem stores_congr {m m' : ByteMemory} {x : ℕ} (h : m x = m' x) (ss : List Store) :
    m.stores ss x = m'.stores ss x := by
  induction ss generalizing m m' with
  | nil => exact h
  | cons s ss ih =>
    refine ih ?_
    simp only [store, h]

/-- A store leaves the addresses it does not touch alone. -/
theorem store_of_not_touches {m : ByteMemory} {s : Store} {x : ℕ} (h : ¬ s.Touches x) :
    m.store s x = m x := by
  unfold store
  split
  · rename_i hle
    -- behind the address, so behind the end
    have hlen : s.bytes.length ≤ x - s.addr := by
      by_contra hlt
      exact h ⟨hle, by omega⟩
    rw [List.getD_eq_getElem?_getD, List.getElem?_eq_none hlen]
    rfl
  · rfl

/-- Stores leave the addresses none of them touches alone. -/
theorem stores_of_not_touches {m : ByteMemory} {ss : List Store} {x : ℕ}
    (h : ∀ s ∈ ss, ¬ s.Touches x) : m.stores ss x = m x := by
  induction ss generalizing m with
  | nil => rfl
  | cons s ss ih =>
    rw [stores_cons, ih fun t ht => h t (List.mem_cons_of_mem _ ht)]
    exact store_of_not_touches (h s (List.mem_cons_self ..))

/-- **Frame**: a read that all stores miss is unchanged. -/
theorem read_stores_of_misses {m : ByteMemory} {ss : List Store} {a n : ℕ}
    (h : ∀ s ∈ ss, s.Misses a n) : (m.stores ss).read a n = m.read a n := by
  refine read_congr fun x hlo hhi => stores_of_not_touches fun s hs htouch => ?_
  rcases h s hs with hbefore | hafter
  · exact absurd htouch.2 (by omega)
  · exact absurd htouch.1 (by omega)

/-- The same for one store. -/
theorem read_store_of_misses {m : ByteMemory} {s : Store} {a n : ℕ} (h : s.Misses a n) :
    (m.store s).read a n = m.read a n :=
  @read_stores_of_misses m [s] a n (by simpa using h)

/-- A byte that a store misses is unchanged. -/
theorem store_apply_of_misses {m : ByteMemory} {s : Store} {x : ℕ} (h : s.Misses x 1) :
    m.store s x = m x := by
  apply store_of_not_touches
  intro htouch
  obtain ⟨hlo, hhi⟩ := htouch
  cases h with
  | inl hbefore => omega
  | inr hafter => omega

/-- Reading back what was just stored. -/
theorem read_store_self (m : ByteMemory) (s : Store) :
    (m.store s).read s.addr s.bytes.length = s.bytes := by
  refine List.ext_getElem (by simp) fun i hi hi' => ?_
  rw [getElem_read]
  simp [store, List.getD_eq_getElem?_getD, List.getElem?_eq_getElem hi']

/-- A store is read back under its address and its length. -/
theorem read_store_eq (m : ByteMemory) {a n : ℕ} {bs : List UInt8} (hlen : bs.length = n) :
    (m.store ⟨a, bs⟩).read a n = bs := by
  subst hlen
  exact read_store_self m ⟨a, bs⟩

/-- **What stores leave behind**: a store that every later store keeps away from
is read back. -/
theorem read_stores_of_apart {m : ByteMemory} {ss ts : List Store} {s : Store}
    (h : ∀ t ∈ ts, t.Misses s.addr s.bytes.length) :
    (m.stores (ss ++ s :: ts)).read s.addr s.bytes.length = s.bytes := by
  rw [stores_append, stores_cons, read_stores_of_misses h, read_store_self]

/-- Pairwise apart stores are all read back. -/
theorem read_stores_of_pairwise {m : ByteMemory} {ss : List Store} (h : ss.Pairwise Store.Apart)
    {s : Store} (hs : s ∈ ss) : (m.stores ss).read s.addr s.bytes.length = s.bytes := by
  obtain ⟨before, after, rfl⟩ := List.append_of_mem hs
  refine read_stores_of_apart fun t ht => ?_
  -- only the stores behind it could overwrite it
  have hpair := (List.pairwise_append.mp h).2.1
  exact ((List.pairwise_cons.mp hpair).1 t ht).symm

/-! ## Layouts -/

/-- The stores go to fixed offsets from `p`: `layout` lists offset and length of each. -/
def HasLayout (ss : List Store) (p : ℕ) (layout : List (ℕ × ℕ)) : Prop :=
  ss.map (fun s => (s.addr, s.bytes.length)) = layout.map fun l => (p + l.1, l.2)

namespace HasLayout

variable {ss : List Store} {p : ℕ} {layout : List (ℕ × ℕ)}

theorem exists_of_mem (h : HasLayout ss p layout) {s : Store} (hs : s ∈ ss) :
    ∃ l ∈ layout, s.addr = p + l.1 ∧ s.bytes.length = l.2 := by
  -- address and length are an entry of the layout
  have hmem : (s.addr, s.bytes.length) ∈ layout.map fun l => (p + l.1, l.2) :=
    h ▸ List.mem_map_of_mem hs
  obtain ⟨l, hl, heq⟩ := List.mem_map.mp hmem
  obtain ⟨haddr, hlen⟩ := Prod.mk.inj heq
  exact ⟨l, hl, haddr.symm, hlen.symm⟩

/-- Stores are apart when their offsets say so. -/
theorem pairwise_apart (h : HasLayout ss p layout)
    (hapart : layout.Pairwise fun l l' => l.1 + l.2 ≤ l'.1 ∨ l'.1 + l'.2 ≤ l.1) :
    ss.Pairwise Store.Apart := by
  have hpairs : (ss.map fun s => (s.addr, s.bytes.length)).Pairwise
      fun l l' => l.1 + l.2 ≤ l'.1 ∨ l'.1 + l'.2 ≤ l.1 := by
    rw [h, List.pairwise_map]
    exact hapart.imp fun h => by omega
  rw [List.pairwise_map] at hpairs
  exact hpairs

theorem within (h : HasLayout ss p layout) {n : ℕ} (hle : ∀ l ∈ layout, l.1 + l.2 ≤ n)
    {s : Store} (hs : s ∈ ss) : s.Within p n := by
  obtain ⟨l, hl, haddr, hlen⟩ := h.exists_of_mem hs
  have hend := hle l hl
  exact ⟨by omega, by omega⟩

theorem misses (h : HasLayout ss p layout) {o n : ℕ}
    (hgap : ∀ l ∈ layout, l.1 + l.2 ≤ o ∨ o + n ≤ l.1) {s : Store} (hs : s ∈ ss) :
    s.Misses (p + o) n := by
  obtain ⟨l, hl, haddr, hlen⟩ := h.exists_of_mem hs
  rcases hgap l hl with hbefore | hafter
  · exact .inl (by omega)
  · exact .inr (by omega)

end HasLayout

/-! ## Consecutive stores -/

/-- Byte strings stored one right behind the other, from address `p` on. -/
def consecutive : ℕ → List (List UInt8) → List Store
  | _, [] => []
  | p, bs :: rest => ⟨p, bs⟩ :: consecutive (p + bs.length) rest

/-- Consecutive stores stay between the first address and the last. -/
theorem bounds_of_mem_consecutive {p : ℕ} {pieces : List (List UInt8)} {s : Store}
    (hs : s ∈ consecutive p pieces) :
    p ≤ s.addr ∧ s.addr + s.bytes.length ≤ p + pieces.flatten.length := by
  induction pieces generalizing p with
  | nil => simp [consecutive] at hs
  | cons bs rest ih =>
    rw [List.flatten_cons, List.length_append]
    rcases List.mem_cons.mp hs with rfl | htail
    · exact ⟨Nat.le_refl _, by simp⟩
    · have hbounds := ih htail
      omega

/-- Consecutive stores are read back as one byte string. -/
theorem read_stores_consecutive (m : ByteMemory) (p : ℕ) (pieces : List (List UInt8)) :
    (m.stores (consecutive p pieces)).read p pieces.flatten.length = pieces.flatten := by
  induction pieces generalizing m p with
  | nil => simp [read]
  | cons bs rest ih =>
    -- the later stores start behind the first one
    have hlater : ∀ s ∈ consecutive (p + bs.length) rest, s.Misses p bs.length :=
      fun s hs => .inr (bounds_of_mem_consecutive hs).1
    rw [List.flatten_cons, List.length_append, read_add, consecutive, stores_cons, ih,
      read_stores_of_misses hlater, read_store_self m ⟨p, bs⟩]

/-- Byte strings that were stored next to each other, in any order, are read
back as one byte string. -/
theorem read_stores_of_consecutive {m : ByteMemory} {ss : List Store}
    (hapart : ss.Pairwise Store.Apart) {p : ℕ} {pieces : List (List UInt8)}
    (hmem : ∀ s ∈ consecutive p pieces, s ∈ ss) :
    (m.stores ss).read p pieces.flatten.length = pieces.flatten := by
  induction pieces generalizing p with
  | nil => simp [read]
  | cons bs rest ih =>
    have hhead := read_stores_of_pairwise (m := m) hapart (hmem ⟨p, bs⟩ (by simp [consecutive]))
    have htail := ih fun s hs => hmem s (List.mem_cons_of_mem _ hs)
    rw [List.flatten_cons, List.length_append, read_add, hhead, htail]

/-! ## Programs that read and store -/

/-- The memories agree on the `n` bytes from `a` on. -/
def AgreeOn (m m' : ByteMemory) (a n : ℕ) : Prop := ∀ x, a ≤ x → x < a + n → m' x = m x

theorem AgreeOn.refl (m : ByteMemory) (a n : ℕ) : AgreeOn m m a n := fun _ _ _ => rfl

theorem AgreeOn.trans {m m' m'' : ByteMemory} {a n : ℕ} (h : AgreeOn m m' a n)
    (h' : AgreeOn m' m'' a n) : AgreeOn m m'' a n :=
  fun x hlo hhi => (h' x hlo hhi).trans (h x hlo hhi)

/-- Stores that stay within one range leave the ranges apart from it. -/
theorem AgreeOn.stores {m : ByteMemory} {ss : List Store} {b k a n : ℕ}
    (hwithin : ∀ s ∈ ss, s.Within b k) (hapart : RangesApart b k a n) :
    AgreeOn m (m.stores ss) a n := by
  intro x hlo hhi
  refine stores_of_not_touches fun s hs ⟨hslo, hshi⟩ => ?_
  obtain ⟨hwlo, hwhi⟩ := hwithin s hs
  rcases hapart with hbefore | hafter <;> omega

theorem AgreeOn.read {m m' : ByteMemory} {a n b k : ℕ} (h : AgreeOn m m' a n) (hlo : a ≤ b)
    (hhi : b + k ≤ a + n) : m'.read b k = m.read b k :=
  read_congr fun x hlo' hhi' => h x (by omega) (by omega)

/-- Memories agree on a range exactly when it reads the same. -/
theorem agreeOn_iff_read {m m' : ByteMemory} {a n : ℕ} :
    AgreeOn m m' a n ↔ m'.read a n = m.read a n := by
  constructor
  · exact read_congr
  · intro hread x hlo hhi
    have hlt : x - a < n := by omega
    have hbyte := congrArg (fun bs : List UInt8 => bs[x - a]?) hread
    simpa [ByteMemory.read, hlt, Nat.add_sub_cancel' hlo] using hbyte

/-- Stores whose bytes are read from memory when their turn comes. -/
def storeEach (m : ByteMemory) (fs : List (ByteMemory → Store)) : ByteMemory :=
  fs.foldl (fun m f => m.store (f m)) m

/-- **A program that stores nothing where it reads** stores what it would have
read at the start. -/
theorem storeEach_eq_stores {m : ByteMemory} {a n : ℕ} {fs : List (ByteMemory → Store)}
    (hreads : ∀ f ∈ fs, ∀ m', AgreeOn m m' a n → f m' = f m)
    (hmisses : ∀ f ∈ fs, (f m).Misses a n) : m.storeEach fs = m.stores (fs.map fun f => f m) := by
  suffices hfrom : ∀ m', AgreeOn m m' a n → m'.storeEach fs = m'.stores (fs.map fun f => f m) from
    hfrom m fun _ _ _ => rfl
  induction fs with
  | nil => exact fun _ _ => rfl
  | cons f fs ih =>
    intro m' hagree
    have hf : f m' = f m := hreads f (List.mem_cons_self ..) m' hagree
    -- a store outside the range keeps the memories in agreement on it
    have hstep : AgreeOn m (m'.store (f m)) a n := by
      intro x hlo hhi
      rw [store_of_not_touches, hagree x hlo hhi]
      rintro ⟨hlo', hhi'⟩
      rcases hmisses f (List.mem_cons_self ..) with hbefore | hafter <;> omega
    show (m'.store (f m')).storeEach fs = (m'.store (f m)).stores _
    rw [hf]
    exact ih (fun g hg => hreads g (List.mem_cons_of_mem _ hg))
      (fun g hg => hmisses g (List.mem_cons_of_mem _ hg)) _ hstep

/-! ## Rings in memory -/

/-- `n` bytes of the ring of `size` bytes at `base`, from offset `off` on, wrapping at the end. -/
def readCircular (m : ByteMemory) (base size off n : ℕ) : List UInt8 :=
  (List.range n).map fun i => m (base + (off + i) % size)

/-- A circular read that does not reach the end of the ring is a plain read. -/
theorem readCircular_of_le (m : ByteMemory) {base size off n : ℕ} (h : off + n ≤ size) :
    m.readCircular base size off n = m.read (base + off) n := by
  refine List.map_congr_left fun i hi => ?_
  rw [List.mem_range] at hi
  rw [Nat.mod_eq_of_lt (by omega), Nat.add_assoc]

/-- A circular read starts with the byte at its offset. -/
theorem head?_readCircular (m : ByteMemory) (base size off n : ℕ) :
    (m.readCircular base size off (n + 1)).head? = some (m (base + off % size)) := by
  simp [readCircular, List.range_succ_eq_map]

/-- A circular read of one block of a ring made of whole blocks. -/
theorem readCircular_block (m : ByteMemory) (base b c u : ℕ) (hb : 0 < b) :
    m.readCircular base (b * c) (b * u) b = m.read (base + b * (u % c)) b := by
  refine List.map_congr_left fun i hi => ?_
  rw [List.mem_range] at hi
  -- the block number wraps, the offset inside the block stays
  have hdiv : (b * u + i) / b = u := by
    rw [Nat.mul_add_div hb, Nat.div_eq_of_lt hi, Nat.add_zero]
  have hmod : (b * u + i) % b = i := by
    rw [Nat.mul_add_mod, Nat.mod_eq_of_lt hi]
  rw [Nat.mod_mul, hdiv, hmod, Nat.add_comm i, Nat.add_assoc]

end ByteMemory
