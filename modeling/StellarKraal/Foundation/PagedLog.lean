import Mathlib.Data.List.Basic
import Mathlib.Order.Nat

/-!
# Reading a log in pages

A log is ordered by a key that several entries may share. A reader asks for the
first entries from a key on, as many as fit a page, and goes on behind the last
key it saw. What the page cut off from that key is then passed over for good.
-/

namespace PagedLog

variable {Entry : Type*} (key : Entry → Nat)

def Ordered (log : List Entry) : Prop := log.Pairwise fun a b => key a ≤ key b

instance (log : List Entry) : Decidable (Ordered key log) :=
  inferInstanceAs (Decidable (log.Pairwise fun a b => key a ≤ key b))

/-- The entries behind the reader. -/
def before (log : List Entry) (cursor : Nat) : List Entry := log.filter (key · < cursor)

/-- The entries ahead of the reader. -/
def ahead (log : List Entry) (cursor : Nat) : List Entry := log.filter (cursor ≤ key ·)

def page (log : List Entry) (limit cursor : Nat) : List Entry := (ahead key log cursor).take limit

/-- What lies ahead but did not fit the page. -/
def beyond (log : List Entry) (limit cursor : Nat) : List Entry :=
  (ahead key log cursor).drop limit

/-- The cursor moved behind every given entry. -/
def advance (cursor : Nat) (entries : List Entry) : Nat :=
  entries.foldl (fun cursor entry => max cursor (key entry + 1)) cursor

/-- Entries beyond the page that end up behind the reader all the same. -/
def skipped (log : List Entry) (limit cursor : Nat) : List Entry :=
  (beyond key log limit cursor).filter (key · < advance key cursor (page key log limit cursor))

/-- The page does not end between two entries of one key. -/
def Whole (log : List Entry) (limit cursor : Nat) : Prop :=
  ∀ a ∈ page key log limit cursor, ∀ b ∈ beyond key log limit cursor, key a < key b

instance (log : List Entry) (limit cursor : Nat) : Decidable (Whole key log limit cursor) :=
  inferInstanceAs (Decidable (∀ a ∈ page key log limit cursor,
    ∀ b ∈ beyond key log limit cursor, key a < key b))

variable {key}

/-! ## The cursor -/

theorem le_advance (cursor : Nat) (entries : List Entry) : cursor ≤ advance key cursor entries := by
  induction entries generalizing cursor with
  | nil => exact le_rfl
  | cons entry rest ih => exact (le_max_left _ _).trans (ih _)

theorem lt_advance {cursor : Nat} {entries : List Entry} :
    ∀ entry ∈ entries, key entry < advance key cursor entries := by
  induction entries generalizing cursor with
  | nil => simp
  | cons head rest ih =>
      intro entry hentry
      rcases List.mem_cons.mp hentry with rfl | hentry
      · exact (Nat.lt_succ_self _).trans_le ((le_max_right _ _).trans (le_advance _ rest))
      · exact ih entry hentry

/-- The cursor moves no further than it has to. -/
theorem advance_le {cursor bound : Nat} {entries : List Entry} (hcursor : cursor ≤ bound)
    (hentries : ∀ entry ∈ entries, key entry < bound) : advance key cursor entries ≤ bound := by
  induction entries generalizing cursor with
  | nil => exact hcursor
  | cons head rest ih =>
      apply ih
      · exact max_le hcursor (hentries head List.mem_cons_self)
      · exact fun entry hentry => hentries entry (List.mem_cons_of_mem _ hentry)

/-! ## Where the entries go -/

/-- Moving the cursor up puts behind it what was behind it and what it passed. -/
theorem before_of_le {log : List Entry} (hlog : Ordered key log) {cursor cursor' : Nat}
    (hle : cursor ≤ cursor') :
    before key log cursor' =
      before key log cursor ++ (ahead key log cursor).filter (key · < cursor') := by
  induction log with
  | nil => rfl
  | cons head rest ih =>
      obtain ⟨hhead, hrest⟩ := List.pairwise_cons.mp hlog
      by_cases hbehind : key head < cursor
      · have hbehind' : key head < cursor' := hbehind.trans_le hle
        have hnot : ¬ cursor ≤ key head := not_le.mpr hbehind
        simpa [before, ahead, hbehind, hbehind', hnot] using ih hrest
      · -- From here on everything is ahead.
        have hahead : ∀ entry ∈ head :: rest, cursor ≤ key entry := by
          intro entry hentry
          rcases List.mem_cons.mp hentry with rfl | hentry
          · exact not_lt.mp hbehind
          · exact (not_lt.mp hbehind).trans (hhead entry hentry)
        have hnone : before key (head :: rest) cursor = [] := by
          simpa [before] using hahead
        have hall : ahead key (head :: rest) cursor = head :: rest := by
          simpa [ahead] using hahead
        rw [hnone, hall]
        rfl

variable (key) in
theorem page_append_beyond (log : List Entry) (limit cursor : Nat) :
    page key log limit cursor ++ beyond key log limit cursor = ahead key log cursor :=
  List.take_append_drop limit _

/-- After a page there lie behind the reader: what did before, the page, and
what was skipped. -/
theorem before_advance {log : List Entry} (hlog : Ordered key log) (limit cursor : Nat) :
    before key log (advance key cursor (page key log limit cursor)) =
      before key log cursor ++ page key log limit cursor ++ skipped key log limit cursor := by
  have hpage : (page key log limit cursor).filter
      (key · < advance key cursor (page key log limit cursor)) = page key log limit cursor := by
    rw [List.filter_eq_self]
    intro entry hentry
    simpa using lt_advance entry hentry
  rw [before_of_le hlog (le_advance cursor _), ← page_append_beyond key log limit cursor,
    List.filter_append, hpage, List.append_assoc]
  rfl

theorem skipped_eq_nil_iff {log : List Entry} {limit cursor : Nat} :
    skipped key log limit cursor = [] ↔ Whole key log limit cursor := by
  simp only [skipped, List.filter_eq_nil_iff, decide_eq_true_eq, not_lt]
  constructor
  · intro hskipped a ha b hb
    exact (lt_advance a ha).trans_le (hskipped b hb)
  · intro hwhole b hb
    apply advance_le
    · have hmem : b ∈ ahead key log cursor := List.mem_of_mem_drop hb
      simpa [ahead] using (List.mem_filter.mp hmem).2
    · exact fun a ha => hwhole a ha b hb

/-! ## Readers -/

/-- The step lemma for a reader that is done with some entries of every page. It
is done with all that lies behind it exactly if it was before, the page was whole
and it is done with the whole page. -/
theorem before_sublist_iff {log : List Entry} (hlog : Ordered key log) {limit cursor : Nat}
    {done new : List Entry} (hdone : done.length ≤ (before key log cursor).length)
    (hnew : new.Sublist (page key log limit cursor)) :
    (before key log (advance key cursor (page key log limit cursor))).Sublist (done ++ new) ↔
      (before key log cursor).Sublist done ∧ Whole key log limit cursor ∧
        new = page key log limit cursor := by
  rw [before_advance hlog, ← skipped_eq_nil_iff]
  constructor
  · intro hsub
    -- Nothing is done twice, so the lengths leave no room for a gap.
    have hlength := hsub.length_le
    have hnewLength := hnew.length_le
    simp only [List.length_append] at hlength
    have hskipped : skipped key log limit cursor = [] := by
      apply List.eq_nil_of_length_eq_zero
      omega
    have hpage : new = page key log limit cursor := hnew.eq_of_length (by omega)
    rw [hskipped, List.append_nil, hpage] at hsub
    have heq := hsub.eq_of_length (by simp only [List.length_append]; omega)
    have hdone : before key log cursor = done := List.append_cancel_right heq
    exact ⟨hdone ▸ List.Sublist.refl _, hskipped, hpage⟩
  · rintro ⟨hbefore, hskipped, rfl⟩
    rw [hskipped, List.append_nil]
    exact hbefore.append (List.Sublist.refl _)

end PagedLog
