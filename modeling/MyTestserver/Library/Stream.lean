import Mathlib.Data.List.Basic

namespace MyTestserver.Stream

variable {α β : Type*}

-- What a decoder finds at the front of the buffered input: not yet enough, an item
-- of a given length, or something it stops at without consuming it.
inductive Front (β : Type*)
  | wait
  | item (value : β) (len : ℕ)
  | stop
  deriving DecidableEq

abbrev Decoder (α β : Type*) := List α → Front β

-- Input that arrives later does not change what was found.
structure Stable (next : Decoder α β) : Prop where
  nil : next [] = .wait
  pos : ∀ {xs b n}, next xs = .item b n → 0 < n
  le : ∀ {xs b n}, next xs = .item b n → n ≤ xs.length
  item_append : ∀ {xs b n} ys, next xs = .item b n → next (xs ++ ys) = .item b n
  stop_append : ∀ {xs} ys, next xs = .stop → next (xs ++ ys) = .stop

def Blocked (next : Decoder α β) (xs : List α) : Prop :=
  ∀ b n, next xs ≠ .item b n

-- Taking items off the front until there is none: the items, and what is left.
inductive Decodes (next : Decoder α β) : List α → List β → List α → Prop
  | rest {xs : List α} : Blocked next xs → Decodes next xs [] xs
  | item {xs rest : List α} {b : β} {n : ℕ} {bs : List β} :
      next xs = .item b n → Decodes next (xs.drop n) bs rest → Decodes next xs (b :: bs) rest

variable {next : Decoder α β} {xs ys rest rest' : List α} {bs bs' : List β}

theorem blocked_of_wait (h : next xs = .wait) : Blocked next xs := by
  intro b n hitem
  rw [h] at hitem
  cases hitem

theorem blocked_of_stop (h : next xs = .stop) : Blocked next xs := by
  intro b n hitem
  rw [h] at hitem
  cases hitem

theorem Decodes.blocked (h : Decodes next xs bs rest) : Blocked next rest := by
  induction h with
  | rest hb => exact hb
  | item _ _ ih => exact ih

theorem Decodes.unique (h : Decodes next xs bs rest) (h' : Decodes next xs bs' rest') :
    bs = bs' ∧ rest = rest' := by
  induction h generalizing bs' with
  | rest hb =>
      cases h' with
      | rest => exact ⟨rfl, rfl⟩
      | item hitem => exact absurd hitem (hb _ _)
  | item hitem _ ih =>
      cases h' with
      | rest hb => exact absurd hitem (hb _ _)
      | item hitem' hrest' =>
          rw [hitem] at hitem'
          obtain ⟨rfl, rfl⟩ := Front.item.inj hitem'
          obtain ⟨rfl, rfl⟩ := ih hrest'
          exact ⟨rfl, rfl⟩

-- Each item is nonempty, so the decoder gets through any input.
theorem exists_decodes (hn : Stable next) (xs : List α) :
    ∃ bs rest, Decodes next xs bs rest := by
  induction hlen : xs.length using Nat.strongRecOn generalizing xs with
  | ind len ih =>
      cases hfront : next xs with
      | wait => exact ⟨[], xs, .rest (blocked_of_wait hfront)⟩
      | stop => exact ⟨[], xs, .rest (blocked_of_stop hfront)⟩
      | item b n =>
          have hpos := hn.pos hfront
          have hle := hn.le hfront
          obtain ⟨bs, rest, hrest⟩ := ih (xs.drop n).length (by rw [List.length_drop]; omega) _ rfl
          exact ⟨b :: bs, rest, .item hfront hrest⟩

-- Decoding a prefix of the input first, and the remainder with the rest of the
-- input appended later, is decoding the whole input.
theorem Decodes.append (hn : Stable next) (h : Decodes next xs bs rest)
    (h' : Decodes next (rest ++ ys) bs' rest') : Decodes next (xs ++ ys) (bs ++ bs') rest' := by
  induction h with
  | rest => exact h'
  | item hitem _ ih =>
      refine .item (hn.item_append ys hitem) ?_
      rw [List.drop_append_of_le_length (hn.le hitem)]
      exact ih h'

-- Items that are found whatever follows them are decoded one after the other.
theorem decodes_flatMap {encode : β → List α}
    (h : ∀ b ∈ bs, ∀ tail, next (encode b ++ tail) = .item b (encode b).length)
    (hrest : Blocked next rest) : Decodes next (bs.flatMap encode ++ rest) bs rest := by
  induction bs with
  | nil => exact .rest hrest
  | cons b bs ih =>
      rw [List.flatMap_cons, List.append_assoc]
      refine .item (h b (by simp) _) ?_
      rw [List.drop_left]
      exact ih fun c hc => h c (List.mem_cons_of_mem _ hc)

-- Chunks arrive one after the other; each is appended to what the previous one left
-- and decoded as far as possible. The log has the items and the remainder of each chunk.
inductive Feeds (next : Decoder α β) :
    List α → List (List α) → List (List β × List α) → List α → Prop
  | nil (buf : List α) : Feeds next buf [] [] buf
  | cons {buf chunk rest last : List α} {chunks : List (List α)} {bs : List β}
      {log : List (List β × List α)} :
      Decodes next (buf ++ chunk) bs rest → Feeds next rest chunks log last →
      Feeds next buf (chunk :: chunks) ((bs, rest) :: log) last

theorem exists_feeds (hn : Stable next) (buf : List α) (chunks : List (List α)) :
    ∃ log last, Feeds next buf chunks log last := by
  induction chunks generalizing buf with
  | nil => exact ⟨[], buf, .nil buf⟩
  | cons chunk chunks ih =>
      obtain ⟨bs, rest, hdec⟩ := exists_decodes hn (buf ++ chunk)
      obtain ⟨log, last, hfeed⟩ := ih rest
      exact ⟨(bs, rest) :: log, last, .cons hdec hfeed⟩

-- Where the chunks are cut makes no difference.
theorem Feeds.decodes (hn : Stable next) {buf last : List α} {chunks : List (List α)}
    {log : List (List β × List α)} (h : Feeds next buf chunks log last)
    (hb : Blocked next buf) :
    Decodes next (buf ++ chunks.flatten) (log.flatMap Prod.fst) last := by
  induction h with
  | nil buf => simpa using Decodes.rest hb
  | cons hdec _ ih =>
      rw [List.flatten_cons, ← List.append_assoc, List.flatMap_cons]
      exact hdec.append hn (ih hdec.blocked)

-- Once the decoder has stopped it stays there.
theorem Feeds.last_stop (hn : Stable next) {buf last : List α} {chunks : List (List α)}
    {log : List (List β × List α)} (h : Feeds next buf chunks log last)
    (hs : next buf = .stop) : next last = .stop := by
  induction h with
  | nil => exact hs
  | @cons buf chunk rest last chunks bs log hdec _ ih =>
      have hstop := hn.stop_append chunk hs
      obtain ⟨_, rfl⟩ := hdec.unique (.rest (blocked_of_stop hstop))
      exact ih hstop

theorem Feeds.stop_iff (hn : Stable next) {buf last : List α} {chunks : List (List α)}
    {log : List (List β × List α)} (h : Feeds next buf chunks log last)
    (hs : next buf ≠ .stop) :
    (∃ entry ∈ log, next entry.2 = .stop) ↔ next last = .stop := by
  induction h with
  | nil => simp [hs]
  | @cons buf chunk rest last chunks bs log _ hfeed ih =>
      by_cases hstop : next rest = .stop
      · exact iff_of_true ⟨(bs, rest), by simp, hstop⟩ (hfeed.last_stop hn hstop)
      · simpa [hstop] using ih hstop

end MyTestserver.Stream
