import CatAndMouse.Table.Symbols
import Mathlib.Data.List.Induction
import Mathlib.Data.List.Nodup

/-!
# The numbers of symbols

Symbols may be frozen more than once. The first call whose lists are valid fixes them for good;
calls before it fail and change nothing, and calls after it are accepted and change nothing.

`Symbols` holds the two lists, and a number is a place in them. `ColumnIndex` spells out what is
kept so that nothing need be counted: a dictionary, a list of names, two counts and a flag, filled
name by name. After any calls it is the index of the symbols (`ColumnIndex.callAll_empty`), so both
number the names in the same way (`first_freeze_wins`).
-/

namespace CatAndMouse

/-! ### Calls -/

/-- A call that is to fix the symbols. -/
structure Freezing where
  terminals : List String
  nonterminals : List String
  eof : String

namespace Freezing

variable {f : Freezing}

/-- The symbols that are named. -/
def symbols (f : Freezing) : Symbols := ⟨f.terminals, f.nonterminals⟩

/-- No name comes twice, and the end of the input is a terminal. -/
def Valid (f : Freezing) : Prop := f.symbols.names.Nodup ∧ f.eof ∈ f.terminals

instance (f : Freezing) : Decidable f.Valid := inferInstanceAs (Decidable (_ ∧ _))

/-- What is wrong with the lists, if anything is. -/
def fault (f : Freezing) : Option SymbolError :=
  if ¬ f.symbols.names.Nodup then some (.duplicate f.symbols.names)
  else if f.eof ∉ f.terminals then some (.noEnd f.eof f.terminals)
  else none

theorem fault_eq_none_iff : f.fault = none ↔ f.Valid := by
  unfold fault Valid
  split <;> simp_all

theorem ofNames_of_fault (f : Freezing) :
    Symbols.ofNames f.terminals f.nonterminals f.eof =
      match f.fault with
      | some e => .error e
      | none => .ok f.symbols := by
  unfold Symbols.ofNames fault
  by_cases hdistinct : f.symbols.names.Nodup
  · by_cases heof : f.eof ∈ f.terminals
    · simp_all [symbols, Symbols.names]
    · simp_all [symbols, Symbols.names]
  · simp_all [symbols, Symbols.names]

/-- Symbols that are valid are fixed. -/
theorem Valid.isFixed (h : f.Valid) : f.symbols.isFixed = true := by
  have hne : f.terminals ≠ [] := List.ne_nil_of_mem h.2
  simpa [Symbols.isFixed, symbols] using hne

end Freezing

namespace Symbols

variable {s : Symbols} {f : Freezing} {calls : List Freezing}

/-- A call: why it fails, if it does, and the symbols after it. -/
def call (s : Symbols) (f : Freezing) : Option SymbolError × Symbols :=
  match s.freeze f.terminals f.nonterminals f.eof with
  | .ok s' => (none, s')
  | .error e => (some e, s)

/-- The symbols after some calls. -/
def callAll (s : Symbols) (calls : List Freezing) : Symbols :=
  calls.foldl (fun s f => (s.call f).2) s

/-- Symbols that are fixed accept any call, and stay as they are. -/
theorem call_of_isFixed (h : s.isFixed = true) (f : Freezing) : s.call f = (none, s) := by
  rw [call, freeze, if_pos h]

/-- A call that fails leaves the symbols as they were. -/
theorem eq_of_call_eq_error {s' : Symbols} {e : SymbolError} (h : s.call f = (some e, s')) :
    s' = s := by
  unfold call at h
  split at h <;> cases h
  rfl

theorem call_empty (f : Freezing) :
    empty.call f = (f.fault, if f.fault = none then f.symbols else empty) := by
  rw [call, freeze, if_neg (by decide), f.ofNames_of_fault]
  cases f.fault <;> simp

theorem callAll_of_isFixed (h : s.isFixed = true) (calls : List Freezing) :
    s.callAll calls = s := by
  induction calls with
  | nil => rfl
  | cons f calls ih =>
    rw [callAll, List.foldl_cons, call_of_isFixed h]
    exact ih

theorem callAll_of_not_valid (h : ∀ f ∈ calls, ¬ f.Valid) : empty.callAll calls = empty := by
  induction calls with
  | nil => rfl
  | cons f calls ih =>
    rw [List.forall_mem_cons] at h
    have hfault : f.fault ≠ none := fun heq => h.1 (Freezing.fault_eq_none_iff.1 heq)
    rw [callAll, List.foldl_cons, call_empty, if_neg hfault]
    exact ih h.2

/-- **The first valid call** fixes the symbols. -/
theorem callAll_of_valid {before later : List Freezing} (hbefore : ∀ g ∈ before, ¬ g.Valid)
    (h : f.Valid) : empty.callAll (before ++ f :: later) = f.symbols := by
  have hempty : empty.callAll before = empty := callAll_of_not_valid hbefore
  rw [callAll] at hempty ⊢
  rw [List.foldl_append, hempty, List.foldl_cons, call_empty,
    if_pos (Freezing.fault_eq_none_iff.2 h)]
  exact callAll_of_isFixed h.isFixed later

/-- A call is needed to fix symbols, and one that is valid does it. -/
theorem callAll_eq_empty_or (calls : List Freezing) :
    empty.callAll calls = empty ∨ (empty.callAll calls).isFixed = true := by
  induction calls using List.reverseRecOn with
  | nil => exact .inl rfl
  | append_singleton calls f ih =>
    rw [callAll, List.foldl_concat, ← callAll]
    rcases ih with h | h
    · rw [h, call_empty]
      by_cases hfault : f.fault = none
      · rw [if_pos hfault]
        exact .inr (Freezing.fault_eq_none_iff.1 hfault).isFixed
      · rw [if_neg hfault]
        exact .inl rfl
    · rw [call_of_isFixed h]
      exact .inr h

end Symbols

/-! ### The index -/

/-- What is kept of the columns: the numbers of the names, the last one entered first; the names in
the order of their numbers; how many of them are terminals and how many are not; and whether they
are fixed. -/
structure ColumnIndex where
  numbers : List (String × Nat)
  names : List String
  terminalCount : Nat
  nonterminalCount : Nat
  fixed : Bool

namespace ColumnIndex

/-- Nothing is kept yet. -/
def empty : ColumnIndex := ⟨[], [], 0, 0, false⟩

/-- Enter a name with its number. -/
def enter (x : ColumnIndex) (entry : String × Nat) : ColumnIndex :=
  { x with numbers := entry :: x.numbers, names := x.names ++ [entry.1] }

/-- Enter the names of a call one by one, and close the index. -/
def fill (x : ColumnIndex) (f : Freezing) : ColumnIndex :=
  { f.symbols.names.zipIdx.foldl enter x with
    terminalCount := f.terminals.length
    nonterminalCount := f.nonterminals.length
    fixed := true }

/-- A call: why it fails, if it does, and the index after it. -/
def call (x : ColumnIndex) (f : Freezing) : Option SymbolError × ColumnIndex :=
  if x.fixed then (none, x)
  else
    match f.fault with
    | some e => (some e, x)
    | none => (none, x.fill f)

/-- The index after some calls. -/
def callAll (x : ColumnIndex) (calls : List Freezing) : ColumnIndex :=
  calls.foldl (fun x f => (x.call f).2) x

/-- The number of a name. -/
def idOf? (x : ColumnIndex) (name : String) : Option Nat := x.numbers.lookup name

/-- The name with a number. -/
def nameOf? (x : ColumnIndex) (id : Nat) : Option String := x.names[id]?

/-- The names that come first. -/
def terminals (x : ColumnIndex) : List String := x.names.take x.terminalCount

/-- The names after them. -/
def nonterminals (x : ColumnIndex) : List String := x.names.drop x.terminalCount

/-- A call that fails leaves the index as it was. -/
theorem eq_of_call_eq_error {x x' : ColumnIndex} {f : Freezing} {e : SymbolError}
    (h : x.call f = (some e, x')) : x' = x := by
  unfold call at h
  split at h
  · cases h
  · split at h <;> cases h
    rfl

theorem foldl_enter (entries : List (String × Nat)) (x : ColumnIndex) :
    entries.foldl enter x =
      { x with
        numbers := entries.reverse ++ x.numbers
        names := x.names ++ entries.map Prod.fst } := by
  induction entries generalizing x with
  | nil => simp
  | cons entry entries ih =>
    rw [List.foldl_cons, ih]
    simp [enter]

end ColumnIndex

/-- The index of symbols, all names entered. -/
def Symbols.index (s : Symbols) : ColumnIndex :=
  ⟨s.names.zipIdx.reverse, s.names, s.terminals.length, s.nonterminals.length, s.isFixed⟩

namespace ColumnIndex

variable {s : Symbols} {f : Freezing}

theorem fill_empty (h : f.Valid) : empty.fill f = f.symbols.index := by
  rw [fill, foldl_enter, Symbols.index, h.isFixed]
  simp [empty, Freezing.symbols]

/-- **A call** does to the index of symbols what it does to the symbols. -/
theorem call_index (hs : s = .empty ∨ s.isFixed = true) (f : Freezing) :
    s.index.call f = ((s.call f).1, (s.call f).2.index) := by
  rcases hs with rfl | hfixed
  · rw [Symbols.call_empty, call, if_neg (by decide)]
    cases hfault : f.fault with
    | some e => rfl
    | none =>
      have hfill : (Symbols.index .empty).fill f = f.symbols.index :=
        fill_empty (Freezing.fault_eq_none_iff.1 hfault)
      rw [if_pos rfl, ← hfill]
  · rw [Symbols.call_of_isFixed hfixed]
    exact if_pos hfixed

/-- **After any calls** the index is that of the symbols. -/
theorem callAll_empty (calls : List Freezing) :
    empty.callAll calls = (Symbols.empty.callAll calls).index := by
  induction calls using List.reverseRecOn with
  | nil => rfl
  | append_singleton calls f ih =>
    have hcall := call_index (Symbols.callAll_eq_empty_or calls) f
    rw [callAll] at ih ⊢
    rw [List.foldl_concat, ih, hcall, Symbols.callAll, Symbols.callAll, List.foldl_concat]

end ColumnIndex

/-! ### Looking up -/

/-- Names and numbers, looked up, are those of two lists: the names of the first are numbered from
zero on, those of the second after them, and no others are. -/
structure Numbers (terminals nonterminals : List String) (idOf? : String → Option Nat)
    (nameOf? : Nat → Option String) : Prop where
  terminal : ∀ i name, terminals[i]? = some name → idOf? name = some i
  nonterminal : ∀ j name, nonterminals[j]? = some name → idOf? name = some (terminals.length + j)
  outside : ∀ name, name ∉ terminals → name ∉ nonterminals → idOf? name = none
  nameOf_idOf : ∀ name ∈ terminals ++ nonterminals, (idOf? name).bind nameOf? = some name
  idOf_nameOf : ∀ i < terminals.length + nonterminals.length, (nameOf? i).bind idOf? = some i

namespace Numbers

/-- Numbers are places in the two lists, one after the other. -/
theorem of_places {terminals nonterminals : List String} {idOf? : String → Option Nat}
    {nameOf? : Nat → Option String}
    (hid : ∀ i name, (terminals ++ nonterminals)[i]? = some name → idOf? name = some i)
    (hout : ∀ name ∉ terminals ++ nonterminals, idOf? name = none)
    (hname : ∀ i, nameOf? i = (terminals ++ nonterminals)[i]?) :
    Numbers terminals nonterminals idOf? nameOf? where
  terminal := fun i name h => by
    refine hid i name ?_
    rw [List.getElem?_append_left (List.getElem?_eq_some_iff.1 h).1, h]
  nonterminal := fun j name h => by
    refine hid _ name ?_
    rw [List.getElem?_append_right (Nat.le_add_right ..), Nat.add_sub_cancel_left, h]
  outside := fun name ht hn => hout name (by simp [ht, hn])
  nameOf_idOf := fun name h => by
    obtain ⟨i, hi⟩ := List.mem_iff_getElem?.1 h
    rw [hid i name hi, Option.bind_some, hname, hi]
  idOf_nameOf := fun i h => by
    have hi := List.getElem?_eq_getElem (List.length_append ▸ h)
    rw [hname, hi, Option.bind_some, hid i _ hi]

end Numbers

theorem Symbols.idOf?_of_getElem? {s : Symbols} {i : Nat} {name : String} (h : s.names.Nodup)
    (hi : s.names[i]? = some name) : s.idOf? name = some i := by
  obtain ⟨hlt, rfl⟩ := List.getElem?_eq_some_iff.1 hi
  refine List.idxOf?_eq_some_iff.2 ⟨hlt, rfl, fun j hj heq => ?_⟩
  exact absurd ((List.Nodup.getElem_inj_iff h).1 heq) (Nat.ne_of_lt hj)

/-- **The symbols** number the names of their lists. -/
theorem Symbols.numbers {s : Symbols} (h : s.names.Nodup) :
    Numbers s.terminals s.nonterminals s.idOf? fun i => s.nameOf? i :=
  .of_places (fun _ _ hi => s.idOf?_of_getElem? h hi) (fun _ hout => List.idxOf?_eq_none_iff.2 hout)
    fun i => by rw [nameOf?, if_pos (Int.natCast_nonneg i), Int.toNat_natCast]; rfl

/-- What is entered under distinct names is found under each of them. -/
theorem lookup_of_mem {entries : List (String × Nat)} {name : String} {i : Nat}
    (h : (entries.map Prod.fst).Nodup) (hmem : (name, i) ∈ entries) :
    entries.lookup name = some i := by
  obtain ⟨l₁, l₂, rfl⟩ := List.append_of_mem hmem
  refine List.lookup_eq_some_iff.2 ⟨l₁, l₂, rfl, fun p hp => ?_⟩
  rw [List.map_append, List.nodup_append] at h
  have hne : p.1 ≠ name := h.2.2 _ (List.mem_map_of_mem hp) _ (by simp)
  simpa using hne.symm

theorem ColumnIndex.idOf?_index {s : Symbols} {i : Nat} {name : String} (h : s.names.Nodup)
    (hi : s.names[i]? = some name) : s.index.idOf? name = some i := by
  refine lookup_of_mem ?_ ?_
  · rw [Symbols.index, List.map_reverse, List.zipIdx_map_fst, List.nodup_reverse]
    exact h
  · rw [Symbols.index, List.mem_reverse, List.mem_zipIdx_iff_getElem?]
    exact hi

/-- **The index** numbers the names as the symbols do. -/
theorem Symbols.numbers_index {s : Symbols} (h : s.names.Nodup) :
    Numbers s.terminals s.nonterminals s.index.idOf? s.index.nameOf? := by
  refine .of_places (fun _ _ hi => ColumnIndex.idOf?_index h hi) (fun name hout => ?_) fun _ => rfl
  rw [ColumnIndex.idOf?, List.lookup_eq_none_iff]
  intro p hp
  have hmem : p.1 ∈ s.names := List.fst_mem_of_mem_zipIdx (List.mem_reverse.1 hp)
  simpa using fun heq : name = p.1 => hout (heq ▸ hmem)

/-! ### The first valid call -/

/-- The symbols and their index are those of a call, and no other call changes them. -/
structure Freezing.Fixes (f : Freezing) (s : Symbols) (x : ColumnIndex) : Prop where
  symbols_eq : s = f.symbols
  index_eq : x = f.symbols.index
  accepts : ∀ g, s.call g = (none, s) ∧ x.call g = (none, x)
  numbers : Numbers f.terminals f.nonterminals s.idOf? fun i => s.nameOf? i
  numbers_index : Numbers f.terminals f.nonterminals x.idOf? x.nameOf?
  terminals_eq : x.terminals = f.terminals
  nonterminals_eq : x.nonterminals = f.nonterminals

theorem Freezing.Valid.fixes {f : Freezing} (h : f.Valid) : f.Fixes f.symbols f.symbols.index where
  symbols_eq := rfl
  index_eq := rfl
  accepts := fun g => by
    have hcall := Symbols.call_of_isFixed h.isFixed g
    refine ⟨hcall, ?_⟩
    rw [ColumnIndex.call_index (.inr h.isFixed), hcall]
  numbers := Symbols.numbers h.1
  numbers_index := Symbols.numbers_index h.1
  terminals_eq := List.take_left
  nonterminals_eq := List.drop_left

/-- **The first valid call wins.** Let any calls be made of new symbols, and of a new index. The
index is that of the symbols, and a call that fails next leaves both as they are. If no call
was valid, both are still new, and the next call fails exactly if its lists are not valid. If some
call was, the first such call has fixed both, whatever the others were. -/
theorem first_freeze_wins (calls : List Freezing) :
    ColumnIndex.empty.callAll calls = (Symbols.empty.callAll calls).index ∧
    (∀ f e s, (Symbols.empty.callAll calls).call f = (some e, s) →
      s = Symbols.empty.callAll calls) ∧
    (∀ f e x, (ColumnIndex.empty.callAll calls).call f = (some e, x) →
      x = ColumnIndex.empty.callAll calls) ∧
    ((∀ g ∈ calls, ¬ g.Valid) →
      Symbols.empty.callAll calls = .empty ∧ ColumnIndex.empty.callAll calls = .empty ∧
      ∀ f, (Symbols.empty.call f).1 = f.fault ∧ (ColumnIndex.empty.call f).1 = f.fault ∧
        (f.fault = none ↔ f.Valid)) ∧
    ∀ before f later, calls = before ++ f :: later → (∀ g ∈ before, ¬ g.Valid) → f.Valid →
      f.Fixes (Symbols.empty.callAll calls) (ColumnIndex.empty.callAll calls) := by
  have hindex := ColumnIndex.callAll_empty calls
  refine ⟨hindex, fun f e s h => Symbols.eq_of_call_eq_error h,
    fun f e x h => ColumnIndex.eq_of_call_eq_error h, fun hnone => ?_, ?_⟩
  · have hempty := Symbols.callAll_of_not_valid hnone
    refine ⟨hempty, by rw [hindex, hempty]; rfl, fun f => ⟨by rw [Symbols.call_empty], ?_,
      Freezing.fault_eq_none_iff⟩⟩
    have hcall := ColumnIndex.call_index (.inl rfl) f
    rw [Symbols.call_empty] at hcall
    exact congrArg Prod.fst hcall
  · rintro before f later rfl hbefore hf
    rw [hindex, Symbols.callAll_of_valid hbefore hf]
    exact hf.fixes

/-- A call with a name twice, one without the end of the input, one that is valid, and another. -/
def someFreezings : List Freezing :=
  [⟨["SIZE", "SIZE", "EOF"], [], "EOF"⟩, ⟨["SIZE"], ["_LIST"], "EOF"⟩,
    ⟨["SIZE", "EOF"], ["_LIST"], "EOF"⟩, ⟨["HALT", "EOF"], [], "EOF"⟩]

/-- The third of these calls wins. -/
theorem first_freeze_wins_third :
    (Symbols.empty.callAll someFreezings).idOf? "_LIST" = some 2 ∧
      (ColumnIndex.empty.callAll someFreezings).idOf? "_LIST" = some 2 := by
  have hfixes := (first_freeze_wins someFreezings).2.2.2.2 (someFreezings.take 2)
    ⟨["SIZE", "EOF"], ["_LIST"], "EOF"⟩ [⟨["HALT", "EOF"], [], "EOF"⟩] rfl (by decide) (by decide)
  exact ⟨hfixes.numbers.nonterminal 0 "_LIST" rfl, hfixes.numbers_index.nonterminal 0 "_LIST" rfl⟩

end CatAndMouse
