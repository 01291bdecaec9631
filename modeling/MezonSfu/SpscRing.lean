import MezonSfu.Runs
import Mathlib.Tactic

/-!
The ring between one producer and one consumer (`sfu_spsc_ring_t`), one memory access at a time.

The positions are 32-bit counters that wrap, and a slot is written before the position that
publishes it. The history keeps the items in order, and for each thread the sizes of the ring at
all moments of its call.
-/

namespace MezonSfu.Spsc

open Function List

/-- Where the producer is in `sfu_spsc_ring_push`. -/
inductive Producer (α : Type*)
  | idle
  | gotTail (item : α) (tail : ℕ)
  | hasRoom (item : α) (tail : ℕ)
  | written (item : α) (tail : ℕ)

/-- Where the consumer is in `sfu_spsc_ring_pop`. -/
inductive Consumer (α : Type*)
  | idle
  | gotHead (head : ℕ)
  | hasItem (head : ℕ)
  | read (item : α) (head : ℕ)

structure SpscRing (α : Type*) where
  capacity : ℕ
  slots : ℕ → α
  head : ℕ
  tail : ℕ
  producer : Producer α
  consumer : Consumer α
  pushed : List α
  popped : List α
  pushSizes : List ℕ
  popSizes : List ℕ
  failedPushes : List (List ℕ)
  failedPops : List (List ℕ)

/-- The thread that makes the next access; an idle producer starts to push the item. -/
inductive Turn (α : Type*)
  | produce (item : α)
  | consume

variable {α : Type*}

/-- `sfu_spsc_ring_init`. -/
def init [Inhabited α] (capacity : ℕ) : Option (SpscRing α) :=
  if capacity = 0 ∨ capacity &&& (capacity - 1) ≠ 0 then none
  else some ⟨capacity, fun _ => default, 0, 0, .idle, .idle, [], [], [0], [0], [], []⟩

namespace SpscRing

variable (s : SpscRing α)

/-- The number of items in the ring, which push and pop compare with the capacity. The masked value
of `sfu_spsc_ring_size`, 0 for a full ring, is not modelled. -/
def size : ℕ := (s.tail + 2 ^ 32 - s.head) % 2 ^ 32

/-- An access of `sfu_spsc_ring_push`. -/
def produce (item : α) : SpscRing α :=
  match s.producer with
  | .idle => { s with producer := .gotTail item s.tail, pushSizes := [] }
  | .gotTail item tail =>
    if s.capacity ≤ (tail + 2 ^ 32 - s.head) % 2 ^ 32 then
      { s with producer := .idle, failedPushes := s.pushSizes :: s.failedPushes }
    else { s with producer := .hasRoom item tail }
  | .hasRoom item tail =>
    { s with
      slots := update s.slots (tail &&& (s.capacity - 1)) item
      producer := .written item tail }
  | .written item tail =>
    { s with tail := (tail + 1) % 2 ^ 32, producer := .idle, pushed := s.pushed ++ [item] }

/-- An access of `sfu_spsc_ring_pop`. -/
def consume : SpscRing α :=
  match s.consumer with
  | .idle => { s with consumer := .gotHead s.head, popSizes := [] }
  | .gotHead head =>
    if head = s.tail then { s with consumer := .idle, failedPops := s.popSizes :: s.failedPops }
    else { s with consumer := .hasItem head }
  | .hasItem head => { s with consumer := .read (s.slots (head &&& (s.capacity - 1))) head }
  | .read item head =>
    { s with head := (head + 1) % 2 ^ 32, consumer := .idle, popped := s.popped ++ [item] }

def observe : SpscRing α :=
  { s with pushSizes := s.size :: s.pushSizes, popSizes := s.size :: s.popSizes }

def step : Turn α → SpscRing α
  | .produce item => (s.produce item).observe
  | .consume => s.consume.observe

def ProducerOk (c : ℕ) : Prop :=
  match s.producer with
  | .idle => True
  | .gotTail _ tail => tail = s.tail
  | .hasRoom _ tail => tail = s.tail ∧ s.pushed.length < s.popped.length + c
  | .written item tail => (tail = s.tail ∧ s.pushed.length < s.popped.length + c) ∧
    s.slots (s.pushed.length % c) = item

def ConsumerOk : Prop :=
  match s.consumer with
  | .idle => True
  | .gotHead head => head = s.head
  | .hasItem head => head = s.head ∧ s.popped.length < s.pushed.length
  | .read item head => head = s.head ∧ s.popped ++ [item] <+: s.pushed

structure Good (k : ℕ) : Prop where
  capacity : s.capacity = 2 ^ k
  tail : s.tail = s.pushed.length % 2 ^ 32
  head : s.head = s.popped.length % 2 ^ 32
  bounds : s.popped.length ≤ s.pushed.length ∧ s.pushed.length ≤ s.popped.length + 2 ^ k
  slots : ∀ i item, s.popped.length ≤ i → s.pushed[i]? = some item → s.slots (i % 2 ^ k) = item
  order : s.popped <+: s.pushed
  producer : s.ProducerOk (2 ^ k)
  consumer : s.ConsumerOk
  failedPushes : ∀ l ∈ s.failedPushes, 2 ^ k ∈ l
  failedPops : ∀ l ∈ s.failedPops, 0 ∈ l

variable {s} {k : ℕ}

lemma index_eq (hk : k ≤ 31) (n : ℕ) : n % 2 ^ 32 &&& (2 ^ k - 1) = n % 2 ^ k := by
  rw [Nat.and_two_pow_sub_one_eq_mod, Nat.mod_mod_of_dvd _ (Nat.pow_dvd_pow 2 (by omega))]

lemma index_ne {c i n : ℕ} (h : i < n) (hn : n < i + c) : i % c ≠ n % c := by
  intro heq
  have hdvd : c ∣ n - i := (Nat.modEq_iff_dvd' h.le).1 heq
  exact absurd (Nat.le_of_dvd (by omega) hdvd) (by omega)

lemma Good.size_eq (hk : k ≤ 31) (h : Good s k) : s.size = s.pushed.length - s.popped.length := by
  have hc : 2 ^ k ≤ 2 ^ 31 := Nat.pow_le_pow_right (by decide) hk
  have hb := h.bounds
  unfold size
  rw [h.tail, h.head]
  omega

lemma Good.produce (hk : k ≤ 31) (h : Good s k) (hseen : s.size ∈ s.pushSizes) (item : α) :
    Good (s.produce item) k := by
  have hsize := h.size_eq hk
  obtain ⟨hle, hroom⟩ := h.bounds
  have hp := h.producer
  unfold ProducerOk at hp
  fun_cases SpscRing.produce s item with
  | case1 hs => exact { h with producer := rfl }
  | case2 item tail hs hfull =>
    rw [hs] at hp
    obtain rfl : tail = s.tail := hp
    refine { h with producer := trivial, failedPushes := forall_mem_cons.2 ⟨?_, h.failedPushes⟩ }
    rw [h.capacity] at hfull
    change 2 ^ k ≤ s.size at hfull
    rwa [show 2 ^ k = s.size by omega]
  | case3 item tail hs hfull =>
    rw [hs] at hp
    obtain rfl : tail = s.tail := hp
    rw [h.capacity] at hfull
    change ¬ 2 ^ k ≤ s.size at hfull
    exact { h with producer := ⟨rfl, by simp only; omega⟩ }
  | case4 item tail hs =>
    rw [hs] at hp
    obtain ⟨rfl, hlt⟩ := hp
    have hindex : s.tail &&& (s.capacity - 1) = s.pushed.length % 2 ^ k := by
      rw [h.capacity, h.tail, index_eq hk]
    rw [hindex]
    refine { h with slots := fun i a hi ha => ?_, producer := ⟨⟨rfl, hlt⟩, update_self ..⟩ }
    have hn : i < s.pushed.length := (List.getElem?_eq_some_iff.1 ha).1
    have hne : i % 2 ^ k ≠ s.pushed.length % 2 ^ k := index_ne hn (by simp only at hi; omega)
    exact (update_of_ne hne ..).trans (h.slots i a hi ha)
  | case5 item tail hs =>
    rw [hs] at hp
    obtain ⟨⟨rfl, hlt⟩, hitem⟩ := hp
    have hmore : s.pushed <+: s.pushed ++ [item] := prefix_append ..
    refine { h with
      tail := by simp [h.tail]
      bounds := by simp only [length_append, length_singleton]; omega
      slots := fun i a hi ha => ?_
      order := h.order.trans hmore
      producer := trivial
      consumer := ?_ }
    · simp only [getElem?_append] at ha
      split_ifs at ha with hlt
      · exact h.slots i a hi ha
      · rw [getElem?_singleton] at ha
        split_ifs at ha with hzero
        cases ha
        rw [← hitem, show i = s.pushed.length by omega]
    · have hcons := h.consumer
      unfold ConsumerOk at hcons ⊢
      cases hs : s.consumer with
      | idle => trivial
      | gotHead => simpa [hs] using hcons
      | hasItem =>
        rw [hs] at hcons
        exact ⟨hcons.1, hcons.2.trans_le hmore.length_le⟩
      | read =>
        rw [hs] at hcons
        exact ⟨hcons.1, hcons.2.trans hmore⟩

lemma Good.consume (hk : k ≤ 31) (h : Good s k) (hseen : s.size ∈ s.popSizes) :
    Good s.consume k := by
  obtain ⟨hle, hroom⟩ := h.bounds
  have hc := h.consumer
  unfold ConsumerOk at hc
  fun_cases SpscRing.consume s with
  | case1 hs => exact { h with consumer := rfl }
  | case2 hs =>
    rw [hs] at hc
    refine { h with consumer := trivial, failedPops := forall_mem_cons.2 ⟨?_, h.failedPops⟩ }
    have hzero : s.size = 0 := by simp [size, show s.tail = s.head from hc]
    rwa [← hzero]
  | case3 head hs hne =>
    rw [hs] at hc
    obtain rfl : head = s.head := hc
    refine { h with consumer := ⟨rfl, hle.lt_of_ne fun heq => hne ?_⟩ }
    rw [h.head, h.tail, heq]
  | case4 head hs =>
    rw [hs] at hc
    obtain ⟨rfl, hlt⟩ := hc
    refine { h with consumer := ⟨rfl, ?_⟩ }
    obtain ⟨rest, hrest⟩ := h.order
    obtain _ | ⟨a, rest⟩ := rest
    · simp [← hrest] at hlt
    · rw [h.capacity, h.head, index_eq hk, h.slots _ a le_rfl (by simp [← hrest]), ← hrest]
      exact ⟨rest, by simp⟩
  | case5 item head hs =>
    rw [hs] at hc
    obtain ⟨rfl, hpre⟩ := hc
    have hlen := hpre.length_le
    rw [length_append, length_singleton] at hlen
    refine { h with
      head := by simp [h.head]
      bounds := by simp only [length_append, length_singleton]; omega
      slots := fun i a hi => h.slots i a (by simp at hi; omega)
      order := hpre
      producer := ?_
      consumer := trivial }
    have hp := h.producer
    unfold ProducerOk at hp ⊢
    cases hs : s.producer with
    | idle => trivial
    | gotTail => simpa [hs] using hp
    | hasRoom =>
      rw [hs] at hp
      exact ⟨hp.1, by simp only [length_append]; omega⟩
    | written =>
      rw [hs] at hp
      exact ⟨⟨hp.1.1, by simp only [length_append]; omega⟩, hp.2⟩

/-- **The ring is a bounded queue.** The items are popped in the order in which they were pushed;
in a push that failed the ring was full at some moment, in a pop that failed it was empty. -/
theorem spsc_bounded_queue [Inhabited α] {capacity : ℕ} {s : SpscRing α} (hc : capacity < 2 ^ 32)
    (h : init capacity = some s) (turns : List (Turn α)) :
    (Runs.run step s turns).popped <+: (Runs.run step s turns).pushed ∧
      (∀ sizes ∈ (Runs.run step s turns).failedPushes, capacity ∈ sizes) ∧
      ∀ sizes ∈ (Runs.run step s turns).failedPops, 0 ∈ sizes := by
  unfold init at h
  split_ifs at h with hpow
  obtain ⟨k, rfl⟩ : capacity.isPowerOfTwo :=
    Nat.ne_zero_and_sub_one_eq_zero_iff_isPowerOfTwo.1 (by simpa using hpow)
  have hk : k ≤ 31 := Nat.lt_succ_iff.1 ((Nat.pow_lt_pow_iff_right (by decide)).1 hc)
  have hgood : Good (Runs.run step s turns) k ∧ _ := Runs.run_inv step
    (I := fun s => Good s k ∧ s.size ∈ s.pushSizes ∧ s.size ∈ s.popSizes) ?_ ?_ turns
  · exact ⟨hgood.1.order, hgood.1.failedPushes, hgood.1.failedPops⟩
  · rintro s (item | _) ⟨hg, hpush, hpop⟩
    · exact ⟨{ hg.produce hk hpush item with }, mem_cons_self, mem_cons_self⟩
    · exact ⟨{ hg.consume hk hpop with }, mem_cons_self, mem_cons_self⟩
  · cases h
    exact ⟨⟨rfl, rfl, rfl, ⟨le_rfl, Nat.zero_le _⟩, nofun, prefix_rfl, trivial, trivial, nofun,
      nofun⟩, by simp [size], by simp [size]⟩

/-- One item through a ring of one slot, with a pop that fails and a push that fails. -/
theorem spsc_bounded_queue_one :
    ∃ s : SpscRing ℕ, init 1 = some s ∧
      let t := Runs.run step s ([.consume, .consume] ++ replicate 6 (.produce 7) ++
        replicate 4 .consume)
      (t.popped = [7] ∧ t.failedPushes.length = 1 ∧ t.failedPops.length = 1) ∧
        t.popped <+: t.pushed ∧ (∀ sizes ∈ t.failedPushes, 1 ∈ sizes) ∧
        ∀ sizes ∈ t.failedPops, 0 ∈ sizes :=
  ⟨_, rfl, by decide, spsc_bounded_queue (by decide) rfl _⟩

end SpscRing

end MezonSfu.Spsc
