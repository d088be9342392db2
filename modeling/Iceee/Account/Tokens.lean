import Iceee.Lib.Text

/-!
# Access tokens

`GenerateToken` hands out a random string for an account, good for a time and, unless it was given
-1 uses, for a number of lookups. `GetToken` looks a string up, counts the use and frees a token
that is used up or out of date.

## Main results

* `getToken_exact`: a lookup returns exactly what was granted, whatever came before it.

## Implementation notes

A token is an object in memory, reached by its address; a freed one is `none` there, and reading it
is a fault. A string without an entry in the map and one with a null pointer are told apart, since
a lookup leaves a null pointer behind.
-/

namespace Iceee.Tokens

open Lib

structure AccessToken where
  token : Text
  tokenType : Int
  uses : Int
  accountID : Int
  expire : UInt64
  deriving DecidableEq, Repr

/-- The tokens of the `AccountManager`. -/
structure AccountManager where
  memory : List (Option AccessToken) := []
  tokens : Text → Option (Option Nat) := fun _ => none

namespace AccountManager

/-- The entry of a string becomes `entry`. -/
def setEntry (m : AccountManager) (token : Text) (entry : Option (Option Nat)) : AccountManager :=
  { m with tokens := Function.update m.tokens token entry }

/-- `erase` of the entry and `delete` of the token. -/
def free (m : AccountManager) (token : Text) (p : Nat) : AccountManager :=
  { m.setEntry token none with memory := m.memory.set p none }

/-- `GetToken`: the address that is returned; none is a read of freed memory. -/
def getToken (m : AccountManager) (g_ServerTime : UInt64) (token : Text) :
    Option (Option Nat × AccountManager) :=
  match m.tokens token with
  | none => some (none, m.setEntry token (some none))
  | some none => some (none, m)
  | some (some p) =>
      match m.memory[p]? with
      | some (some t) =>
          if t.uses ≠ -1 ∧ t.uses < 1 then some (none, m.free token p)
          else
            let uses := if t.uses ≠ -1 then t.uses - 1 else t.uses
            if g_ServerTime < t.expire then
              some (some p, { m with memory := m.memory.set p (some { t with uses }) })
            else some (none, m.free token p)
      | _ => none

/-- `GenerateToken`, with the random string. -/
def generateToken (m : AccountManager) (g_ServerTime : UInt64) (token : Text) (accountID : Int)
    (ttl : UInt64) (tokenType uses : Int) : AccountManager :=
  { m.setEntry token (some (some m.memory.length)) with
    memory := m.memory ++
      [some { token, tokenType, uses, accountID, expire := g_ServerTime + ttl }] }

end AccountManager

/-! ### Runs -/

/-- A call, with its time; a lookup with what it returned. -/
inductive Event where
  | generate (now : UInt64) (t : AccessToken)
  | get (now : UInt64) (token : Text)
  deriving DecidableEq

def Event.now : Event → UInt64
  | generate now _ => now
  | get now _ => now

/-- The token that was generated with a string, and the number of lookups of the string that were
made since then and before it expired. -/
def granted (token : Text) : List Event → Option (AccessToken × Nat)
  | [] => none
  | .generate _ t :: h => if t.token = token then some (t, 0) else granted token h
  | .get now s :: h =>
      (granted token h).map fun (t, n) => (t, if s = token ∧ now < t.expire then n + 1 else n)

/-- The calls so far, the newest first: the time does not go back and no string is given twice. -/
inductive Run : List Event → AccountManager → Prop
  | start : Run [] {}
  | generate {h m now token ttl} (accountID tokenType uses : Int) (run : Run h m)
      (later : ∀ e ∈ h, e.now ≤ now) (fresh : granted token h = none) :
      Run (.generate now { token, tokenType, uses, accountID, expire := now + ttl } :: h)
        (m.generateToken now token accountID ttl tokenType uses)
  | get {h m now token r m'} (run : Run h m) (later : ∀ e ∈ h, e.now ≤ now)
      (hget : m.getToken now token = some (r, m')) : Run (.get now token :: h) m'

/-- What the grant says of a lookup: it is in time, and the uses are not counted or not used up. -/
def Honoured (h : List Event) (now : UInt64) (token : Text) (t : AccessToken) : Prop :=
  ∃ n, granted token h = some (t, n) ∧ now < t.expire ∧ (t.uses = -1 ∨ (n : Int) < t.uses)

/-! ### What is left of a grant -/

/-- The uses of a token after `n` lookups. -/
def remaining (t : AccessToken) (n : Nat) : AccessToken :=
  if t.uses = -1 then t else { t with uses := t.uses - n }

/-- A string in a state: its token is in memory and can be looked up, or nothing is, and the grant is
used up or has expired. -/
def Kept (h : List Event) (m : AccountManager) (token : Text) : Prop :=
  match granted token h with
  | none => m.tokens token = none ∨ m.tokens token = some none
  | some (t, n) =>
      (∃ p, m.tokens token = some (some p) ∧ m.memory[p]? = some (some (remaining t n)) ∧
        (t.uses = -1 ∨ n = 0 ∨ (n : Int) ≤ t.uses)) ∨
      ((m.tokens token = none ∨ m.tokens token = some none) ∧
        ((∃ e ∈ h, t.expire ≤ e.now) ∨ t.uses ≠ -1 ∧ t.uses ≤ n))

theorem kept_of_none {h : List Event} {m : AccountManager} {token : Text}
    (hgrant : granted token h = none) :
    Kept h m token ↔ m.tokens token = none ∨ m.tokens token = some none := by
  rw [Kept, hgrant]

theorem kept_of_some {h : List Event} {m : AccountManager} {token : Text} {t : AccessToken}
    {n : Nat} (hgrant : granted token h = some (t, n)) :
    Kept h m token ↔
      (∃ p, m.tokens token = some (some p) ∧ m.memory[p]? = some (some (remaining t n)) ∧
        (t.uses = -1 ∨ n = 0 ∨ (n : Int) ≤ t.uses)) ∨
      ((m.tokens token = none ∨ m.tokens token = some none) ∧
        ((∃ e ∈ h, t.expire ≤ e.now) ∨ t.uses ≠ -1 ∧ t.uses ≤ n)) := by
  rw [Kept, hgrant]

/-- Every string is kept, and no two share a token. -/
structure Inv (h : List Event) (m : AccountManager) : Prop where
  kept : ∀ token, Kept h m token
  distinct : ∀ token token' p, m.tokens token = some (some p) → m.tokens token' = some (some p) →
    token = token'
  bound : ∀ token p, m.tokens token = some (some p) → p < m.memory.length

section Steps

variable {h h' : List Event} {m m' : AccountManager} {token s : Text} {now : UInt64}

/-- A step that leaves the entry and the token of a string alone keeps the string. -/
theorem Kept.frame (hs : Kept h m s) (hgrant : granted s h' = granted s h)
    (hsub : ∀ e ∈ h, e ∈ h') (htokens : m'.tokens s = m.tokens s)
    (hmemory : ∀ p, m.tokens s = some (some p) → m'.memory[p]? = m.memory[p]?) :
    Kept h' m' s := by
  cases hg : granted s h with
  | none =>
      rw [kept_of_none (hgrant.trans hg), htokens]
      exact (kept_of_none hg).mp hs
  | some g =>
      obtain ⟨t, n⟩ := g
      rw [kept_of_some (hgrant.trans hg), htokens]
      rcases (kept_of_some hg).mp hs with ⟨p, hp, hmem, hn⟩ | ⟨hnone, hover⟩
      · exact .inl ⟨p, hp, (hmemory p hp).trans hmem, hn⟩
      · exact .inr ⟨hnone, hover.imp_left fun ⟨e, he, hle⟩ => ⟨e, hsub e he, hle⟩⟩

theorem granted_get_of_ne (hne : s ≠ token) :
    granted s (.get now token :: h) = granted s h := by
  rw [granted]
  have hid : (fun x : AccessToken × Nat =>
      (x.1, if token = s ∧ now < x.1.expire then x.2 + 1 else x.2)) = id := by
    funext x
    rw [if_neg fun hand => hne hand.1.symm]
    rfl
  exact (congrArg (Option.map · _) hid).trans (Option.map_id_apply)

theorem granted_get_self {t : AccessToken} {n : Nat} (hg : granted token h = some (t, n)) :
    granted token (.get now token :: h) =
      some (t, if now < t.expire then n + 1 else n) := by
  rw [granted, hg]
  simp

theorem granted_get_none (hg : granted token h = none) :
    granted token (.get now token :: h) = none := by
  rw [granted, hg]
  rfl

/-- A lookup changes the entry of its own string and the token behind it only. -/
theorem Inv.of_get (inv : Inv h m) (htokens : ∀ s, s ≠ token → m'.tokens s = m.tokens s)
    (hself : ∀ p, m'.tokens token = some (some p) → m.tokens token = some (some p))
    (hmemory : ∀ p, m.tokens token ≠ some (some p) → m'.memory[p]? = m.memory[p]?)
    (hlength : m'.memory.length = m.memory.length)
    (hkept : Kept (.get now token :: h) m' token) : Inv (.get now token :: h) m' := by
  have hback (s : Text) (p : Nat) (hp : m'.tokens s = some (some p)) :
      m.tokens s = some (some p) := by
    by_cases hs : s = token
    · subst hs
      exact hself p hp
    · rwa [htokens s hs] at hp
  refine ⟨fun s => ?_, fun s s' p hp hp' => ?_, fun s p hp => ?_⟩
  · by_cases hs : s = token
    · subst hs
      exact hkept
    · refine (inv.kept s).frame (granted_get_of_ne hs) (fun e he => List.mem_cons_of_mem _ he)
        (htokens s hs) fun p hp => hmemory p fun hp' => hs (inv.distinct s token p hp hp')
  · exact inv.distinct s s' p (hback s p hp) (hback s' p hp')
  · rw [hlength]
    exact inv.bound s p (hback s p hp)

/-- A lookup of a string without a token. -/
theorem Inv.get_null (inv : Inv h m) (hnull : m.tokens token = none ∨ m.tokens token = some none)
    (htokens : ∀ s, s ≠ token → m'.tokens s = m.tokens s)
    (hself : m'.tokens token = none ∨ m'.tokens token = some none)
    (hmemory : m'.memory = m.memory) : Inv (.get now token :: h) m' := by
  refine inv.of_get htokens (fun p hp => ?_) (fun p _ => by rw [hmemory]) (by rw [hmemory]) ?_
  · rcases hself with h | h <;> rw [h] at hp <;> cases hp
  · cases hg : granted token h with
    | none => exact (kept_of_none (granted_get_none hg)).mpr hself
    | some g =>
        obtain ⟨t, n⟩ := g
        refine (kept_of_some (granted_get_self hg)).mpr (.inr ⟨hself, ?_⟩)
        rcases (kept_of_some hg).mp (inv.kept token) with ⟨p, hp, -⟩ | ⟨-, hover⟩
        · rcases hnull with h | h <;> rw [h] at hp <;> cases hp
        · refine hover.imp (fun ⟨e, he, hle⟩ => ⟨e, List.mem_cons_of_mem _ he, hle⟩) fun hused => ?_
          refine ⟨hused.1, le_trans hused.2 ?_⟩
          split
          · push_cast
            omega
          · exact le_refl _

/-- The lookup of a string whose token is freed. -/
theorem Inv.get_free (inv : Inv h m) {p : Nat} (hp : m.tokens token = some (some p))
    {t : AccessToken} {n : Nat} (hg : granted token h = some (t, n))
    (hover : t.expire ≤ now ∨ t.uses ≠ -1 ∧ t.uses ≤ n) :
    Inv (.get now token :: h) (m.free token p) := by
  have hself : (m.free token p).tokens token = none := Function.update_self _ _ _
  refine inv.of_get (fun s hs => Function.update_of_ne hs _ _) (fun q hq => ?_) (fun q hq => ?_)
    (List.length_set ..) ?_
  · rw [hself] at hq
    cases hq
  · have hne : p ≠ q := fun h => hq (h ▸ hp)
    exact List.getElem?_set_ne hne
  · refine (kept_of_some (granted_get_self hg)).mpr (.inr ⟨.inl hself, ?_⟩)
    refine hover.imp (fun hle => ⟨_, List.mem_cons_self, hle⟩) fun hused => ⟨hused.1, ?_⟩
    refine le_trans hused.2 ?_
    split
    · push_cast
      omega
    · exact le_refl _

theorem remaining_succ {t : AccessToken} {n : Nat} (hn : t.uses = -1 ∨ (n : Int) < t.uses) :
    { remaining t n with
      uses := if (remaining t n).uses ≠ -1 then (remaining t n).uses - 1
        else (remaining t n).uses } = remaining t (n + 1) := by
  by_cases hu : t.uses = -1
  · have hsame (k : Nat) : remaining t k = t := if_pos hu
    rw [hsame, hsame, if_neg (not_not.mpr hu)]
  · have hne : t.uses - n ≠ -1 := by omega
    simp only [remaining, if_neg hu, if_pos hne, ne_eq]
    congr 1
    push_cast
    omega

/-- What a lookup answers: the address of a token that was granted and may still be used, or null
because none may. -/
def Answers (h : List Event) (now : UInt64) (token : Text) (m' : AccountManager) :
    Option Nat → Prop
  | some p => ∃ t uses, Honoured h now token t ∧ m'.memory[p]? = some (some { t with uses })
  | none => ∀ t, ¬Honoured h now token t

theorem not_honoured_of_over {t : AccessToken} {n : Nat} (hg : granted token h = some (t, n))
    (hover : t.expire ≤ now ∨ t.uses ≠ -1 ∧ t.uses ≤ n) (t' : AccessToken) :
    ¬Honoured h now token t' := by
  rintro ⟨n', hg', hlt, huses⟩
  obtain ⟨rfl, rfl⟩ := Prod.mk.inj (Option.some.inj (hg'.symm.trans hg))
  rcases hover with hle | ⟨hne, hle⟩
  · exact absurd hlt (UInt64.not_lt.mpr hle)
  · rcases huses with h | h
    · exact hne h
    · omega

theorem not_honoured_of_null (inv : Inv h m) (later : ∀ e ∈ h, e.now ≤ now)
    (hnull : m.tokens token = none ∨ m.tokens token = some none) (t : AccessToken) :
    ¬Honoured h now token t := by
  cases hg : granted token h with
  | none =>
      rintro ⟨n, hg', -⟩
      rw [hg] at hg'
      cases hg'
  | some g =>
      obtain ⟨t', n⟩ := g
      rcases (kept_of_some hg).mp (inv.kept token) with ⟨p, hp, -⟩ | ⟨-, hover⟩
      · rcases hnull with h | h <;> rw [h] at hp <;> cases hp
      · refine not_honoured_of_over hg (hover.imp_left ?_) t
        rintro ⟨e, he, hle⟩
        exact UInt64.le_trans hle (later e he)

/-- A lookup reads no freed memory, answers as granted and keeps the invariant. -/
theorem getToken_spec (inv : Inv h m) (later : ∀ e ∈ h, e.now ≤ now) (token : Text) :
    ∃ r m', m.getToken now token = some (r, m') ∧ Answers h now token m' r ∧
      Inv (.get now token :: h) m' := by
  cases hentry : m.tokens token with
  | none =>
      refine ⟨none, m.setEntry token (some none), by rw [AccountManager.getToken, hentry],
        not_honoured_of_null inv later (.inl hentry), ?_⟩
      exact inv.get_null (.inl hentry) (fun s hs => Function.update_of_ne hs _ _)
        (.inr (Function.update_self _ _ _)) rfl
  | some entry =>
    cases entry with
    | none =>
        exact ⟨none, m, by rw [AccountManager.getToken, hentry],
          not_honoured_of_null inv later (.inr hentry),
          inv.get_null (.inr hentry) (fun _ _ => rfl) (.inr hentry) rfl⟩
    | some p =>
        have hkept := inv.kept token
        cases hg : granted token h with
        | none =>
            rcases (kept_of_none hg).mp hkept with h | h <;> rw [hentry] at h <;> cases h
        | some g =>
          obtain ⟨t, n⟩ := g
          rcases (kept_of_some hg).mp hkept with ⟨q, hq, hmem, hn⟩ | ⟨hnull, -⟩
          swap
          · rcases hnull with h | h <;> rw [hentry] at h <;> cases h
          obtain rfl : p = q := Option.some.inj (Option.some.inj (hentry.symm.trans hq))
          have huses : (remaining t n).uses ≠ -1 ∧ (remaining t n).uses < 1 ↔
              t.uses ≠ -1 ∧ t.uses ≤ n := by
            by_cases hu : t.uses = -1
            · simp [remaining, hu]
            · simp only [remaining, if_neg hu]
              omega
          have hexpire : (remaining t n).expire = t.expire := by
            rw [remaining]
            split <;> rfl
          rw [AccountManager.getToken, hentry]
          simp only [hmem]
          by_cases hused : t.uses ≠ -1 ∧ t.uses ≤ n
          · rw [if_pos (huses.mpr hused)]
            exact ⟨_, _, rfl, not_honoured_of_over hg (.inr hused),
              inv.get_free hentry hg (.inr hused)⟩
          · have hleft : t.uses = -1 ∨ (n : Int) < t.uses := by omega
            rw [if_neg (mt huses.mp hused)]
            by_cases hlt : now < t.expire
            · rw [if_pos (hexpire.symm ▸ hlt)]
              have hset : (m.memory.set p (some (remaining t (n + 1))))[p]? =
                  some (some (remaining t (n + 1))) :=
                List.getElem?_set_self (inv.bound token p hentry)
              refine ⟨some p, { m with memory := m.memory.set p (some (remaining t (n + 1))) },
                by rw [← remaining_succ hleft], ?_, ?_⟩
              · refine ⟨t, (remaining t (n + 1)).uses, ⟨n, hg, hlt, hleft⟩, hset.trans ?_⟩
                rw [remaining]
                split <;> rfl
              · refine inv.of_get (fun _ _ => rfl) (fun _ hp => hp) (fun q hq => ?_)
                  (List.length_set ..) ?_
                · have hne : p ≠ q := fun h => hq (h ▸ hentry)
                  exact List.getElem?_set_ne hne
                · rw [kept_of_some (granted_get_self hg), if_pos hlt]
                  refine .inl ⟨p, hentry, hset, ?_⟩
                  push_cast
                  omega
            · have hle : t.expire ≤ now := UInt64.not_lt.mp hlt
              rw [if_neg (hexpire.symm ▸ hlt)]
              exact ⟨_, _, rfl, not_honoured_of_over hg (.inl hle),
                inv.get_free hentry hg (.inl hle)⟩

theorem Inv.generate (inv : Inv h m) {ttl : UInt64} (accountID tokenType uses : Int)
    (fresh : granted token h = none) :
    Inv (.generate now { token, tokenType, uses, accountID, expire := now + ttl } :: h)
      (m.generateToken now token accountID ttl tokenType uses) := by
  set t : AccessToken := { token, tokenType, uses, accountID, expire := now + ttl } with ht
  have hself : (m.generateToken now token accountID ttl tokenType uses).tokens token =
      some (some m.memory.length) := Function.update_self _ _ _
  have hother {s : Text} (hs : s ≠ token) :
      (m.generateToken now token accountID ttl tokenType uses).tokens s = m.tokens s :=
    Function.update_of_ne hs _ _
  refine ⟨fun s => ?_, fun s s' p hp hp' => ?_, fun s p hp => ?_⟩
  · by_cases hs : s = token
    · subst hs
      have hgrant : granted s (.generate now t :: h) = some (t, 0) := if_pos rfl
      rw [kept_of_some hgrant]
      refine .inl ⟨m.memory.length, hself, ?_, .inr (.inl rfl)⟩
      have hremaining : remaining t 0 = t := by
        rw [remaining]
        split
        · rfl
        · simp
      rw [hremaining]
      exact List.getElem?_concat_length
    · refine (inv.kept s).frame (if_neg fun h => hs h.symm)
        (fun e he => List.mem_cons_of_mem _ he) (hother hs) fun p hp => ?_
      exact List.getElem?_append_left (inv.bound s p hp)
  · by_cases hs : s = token
    · by_cases hs' : s' = token
      · rw [hs, hs']
      · rw [hs, hself] at hp
        rw [hother hs'] at hp'
        obtain rfl := Option.some.inj (Option.some.inj hp)
        exact absurd (inv.bound s' _ hp') (lt_irrefl _)
    · rw [hother hs] at hp
      by_cases hs' : s' = token
      · rw [hs', hself] at hp'
        obtain rfl := Option.some.inj (Option.some.inj hp')
        exact absurd (inv.bound s _ hp) (lt_irrefl _)
      · rw [hother hs'] at hp'
        exact inv.distinct s s' p hp hp'
  · have hlength : (m.generateToken now token accountID ttl tokenType uses).memory.length =
        m.memory.length + 1 := List.length_append
    rw [hlength]
    by_cases hs : s = token
    · rw [hs, hself] at hp
      obtain rfl := Option.some.inj (Option.some.inj hp)
      exact Nat.lt_succ_self _
    · rw [hother hs] at hp
      exact Nat.lt_succ_of_lt (inv.bound s p hp)

end Steps

theorem Run.inv {h : List Event} {m : AccountManager} (run : Run h m) : Inv h m := by
  induction run with
  | start =>
      refine ⟨fun token => .inl rfl, fun _ _ _ hp => ?_, fun _ _ hp => ?_⟩ <;> cases hp
  | generate accountID tokenType uses _ _ fresh ih =>
      exact ih.generate accountID tokenType uses fresh
  | get _ later hget ih =>
      obtain ⟨r, m', hspec, -, hinv⟩ := getToken_spec ih later _
      obtain ⟨-, rfl⟩ := Prod.mk.inj (Option.some.inj (hget.symm.trans hspec))
      exact hinv

/-- After any run of calls a lookup reads no freed memory and returns exactly what was granted: a
token of `n` uses by the first `n` lookups before it expires, one of -1 uses by all of them. -/
theorem getToken_exact {h : List Event} {m : AccountManager} (run : Run h m) {now : UInt64}
    (later : ∀ e ∈ h, e.now ≤ now) (token : Text) :
    ∃ r m', m.getToken now token = some (r, m') ∧ Answers h now token m' r := by
  obtain ⟨r, m', hget, hanswers, -⟩ := getToken_spec run.inv later token
  exact ⟨r, m', hget, hanswers⟩

/-- A token of one use, looked up in time. -/
theorem getToken_exact_once :
    ∃ r m', (AccountManager.generateToken {} 5 ['k'] 1 10 0 1).getToken 7 ['k'] = some (r, m') ∧
      Answers [.generate 5 ⟨['k'], 0, 1, 1, 5 + 10⟩] 7 ['k'] m' r :=
  getToken_exact (.generate 1 0 1 .start (fun _ h => nomatch h) rfl)
    (fun e he => by rw [List.mem_singleton.mp he]; decide) ['k']

end Iceee.Tokens
