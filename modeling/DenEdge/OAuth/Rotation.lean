import DenEdge.Base.Run
import DenEdge.OAuth.Session
import Mathlib.Data.List.DropRight

/-!
# Rotation of refresh secrets

One session, and the refresh calls made to it one after another. Beside the session stand the secrets themselves,
as they were issued, taken and retired: the session keeps only their digests. `rotation` says of every sequence of
calls which secrets are taken, how often, and which end the session.
-/

namespace DenEdge.OAuth

/-- A refresh call: the secret it presents, the client it names, and what is drawn if it is taken. -/
structure Call where
  secret : String
  clientId : Option String
  now : ℕ
  standing : Standing
  drawn : Draw

/-- A secret that was taken. -/
structure Accept where
  secret : String
  now : ℕ
  retry : Bool
  deriving DecidableEq

structure Rotation where
  /-- Nothing where it has ended. -/
  session : Option Session
  clock : ℕ
  issued : List String
  /-- The secret now valid, the one it replaced, and those replaced before, in the order they were retired in. -/
  current : String
  previous : Option String
  retired : List String
  accepts : List Accept

variable {Key : Type} (sha : Digest) (W : Wrapping Key)

/-- A session as an exchanged code opens it. -/
def Rotation.open (code : Code Key) (sid : String) (drawn : Draw) (now : ℕ) : Rotation :=
  ⟨some (openSession sha W code sid drawn now), now, [drawn.secret], drawn.secret, none, [], []⟩

/-- A secret was taken. -/
def Rotation.take (s : Rotation) (t : Session) (retry : Bool) (c : Call) : Rotation :=
  ⟨some t, c.now, s.issued ++ [c.drawn.secret], c.drawn.secret, if retry then none else some s.current,
    if retry then s.retired ++ [s.current] ++ s.previous.toList else s.retired ++ s.previous.toList,
    s.accepts ++ [⟨c.secret, c.now, retry⟩]⟩

def Rotation.step (s : Rotation) (c : Call) : Rotation :=
  match s.session with
  | none => { s with clock := c.now }
  | some t =>
    match refresh sha W t c.secret c.clientId c.now c.standing c.drawn with
    | .rotate t' _ => s.take t' (t.isRetry sha c.secret c.now) c
    | .drop _ => { s with session := none, clock := c.now }
    | .refuse _ => { s with clock := c.now }
    | .internal => { s with clock := c.now }

variable {sha W}

/-! ## The newest of the retired -/

variable {α : Type}

theorem keepRetired_eq (l : List α) : keepRetired l = ((l.reverse).take RETIRED_KEPT).reverse :=
  List.rtake_eq_reverse_take_reverse l RETIRED_KEPT

theorem keepRetired_append (l m : List α) : keepRetired (keepRetired l ++ m) = keepRetired (l ++ m) := by
  rw [keepRetired_eq, keepRetired_eq, keepRetired_eq, List.reverse_append, List.reverse_append,
    List.reverse_reverse, List.take_append, List.take_append, List.take_take]
  have hle : min (RETIRED_KEPT - m.reverse.length) RETIRED_KEPT = RETIRED_KEPT - m.reverse.length := by omega
  rw [hle]

theorem keepRetired_map {β : Type} (f : α → β) (l : List α) : keepRetired (l.map f) = (keepRetired l).map f := by
  unfold keepRetired
  rw [List.length_map, List.map_drop]

/-! ## What was taken when -/

/-- Of two takings of one secret, the second is a retry that follows the first at once, within the grace. -/
def Spaced (l : List Accept) : Prop :=
  ∀ i j a b, i < j → l[i]? = some a → l[j]? = some b → a.secret = b.secret →
    j = i + 1 ∧ b.retry = true ∧ b.now < a.now + REFRESH_GRACE_MS

theorem spaced_nil : Spaced [] := by
  intro i j a b hij ha
  simp at ha

theorem Spaced.snoc {l : List Accept} {b : Accept} (h : Spaced l)
    (hb : ∀ i a, l[i]? = some a → a.secret = b.secret →
      l.length = i + 1 ∧ b.retry = true ∧ b.now < a.now + REFRESH_GRACE_MS) : Spaced (l ++ [b]) := by
  intro i j a b' hij ha hb' hsame
  have hi : i < l.length := by
    have hj : j < (l ++ [b]).length := (List.getElem?_eq_some_iff.mp hb').1
    rw [List.length_append, List.length_singleton] at hj
    omega
  rw [List.getElem?_append_left hi] at ha
  by_cases hj : j < l.length
  · rw [List.getElem?_append_left hj] at hb'
    exact h i j a b' hij ha hb' hsame
  · -- the later of the two is the last
    have hlast : j = l.length := by
      have hj' : j < (l ++ [b]).length := (List.getElem?_eq_some_iff.mp hb').1
      rw [List.length_append, List.length_singleton] at hj'
      omega
    subst hlast
    have hbb : b = b' := by simpa using hb'
    subst hbb
    exact hb i a ha hsame

/-- A secret that is taken again is taken twice. -/
theorem Spaced.count_le {l : List Accept} (h : Spaced l) (x : String) : (l.filter (·.secret = x)).length ≤ 2 := by
  by_contra hmore
  have hthree : 2 < (l.filter (·.secret = x)).length := not_le.mp hmore
  -- three takings stand at three places of the list, and two of them are not next to each other
  obtain ⟨f, hf⟩ :=
    List.sublist_iff_exists_fin_orderEmbedding_get_eq.mp (List.filter_sublist (p := (·.secret = x)) (l := l))
  have hsecret : ∀ i, (l.get (f i)).secret = x := by
    intro i
    rw [← hf i]
    simpa using (List.mem_filter.mp (List.get_mem _ i)).2
  have hat : ∀ i, l[(f i).1]? = some (l.get (f i)) := fun i => List.getElem?_eq_getElem (f i).2
  have h₁ : f ⟨0, by omega⟩ < f ⟨1, by omega⟩ := f.strictMono (by simp)
  have h₂ : f ⟨1, by omega⟩ < f ⟨2, hthree⟩ := f.strictMono (by simp)
  have htwo := (h _ _ _ _ (h₁.trans h₂) (hat _) (hat _) ((hsecret _).trans (hsecret _).symm)).1
  omega

/-! ## The invariant -/

/-- The key wrapped under a secret, of the grant the session has. -/
def WrappedUnder (W : Wrapping Key) (t : Session) (secret : String) (wrap : Option String) : Prop :=
  ∀ id, t.grant = some id → ∃ key nonce, W.id key = id ∧ wrap = some (W.wrap secret t.sid key nonce)

/-- What the session keeps of the secrets. -/
structure Keeps (sha : Digest) (W : Wrapping Key) (s : Rotation) (t : Session) : Prop where
  current : t.refreshHash = sha.of s.current
  previous : t.previousHash = s.previous.map sha.of
  retired : t.retired = (keepRetired s.retired).map sha.of
  wrap : WrappedUnder W t s.current t.wrap
  previousWrap : ∀ p ∈ s.previous, WrappedUnder W t p t.previousWrap
  /-- The secret that was replaced is the last that was taken, and was taken once. -/
  replaced : ∀ p ∈ s.previous, ∃ l, s.accepts = l ++ [⟨p, t.rotatedAt, false⟩] ∧ ∀ a ∈ l, a.secret ≠ p

structure Rotates (sha : Digest) (W : Wrapping Key) (s : Rotation) : Prop where
  session : ∀ t, s.session = some t → Keeps sha W s t
  distinct : (s.retired ++ s.previous.toList ++ [s.current]).Nodup
  known : ∀ x ∈ s.retired ++ s.previous.toList ++ [s.current], x ∈ s.issued
  taken : ∀ a ∈ s.accepts, a.secret ∈ s.issued ∧ a.secret ≠ s.current
  spaced : Spaced s.accepts

theorem rotates_open (sha : Digest) (W : Wrapping Key) (code : Code Key) (sid : String) (drawn : Draw) (now : ℕ) :
    Rotates sha W (Rotation.open sha W code sid drawn now) where
  session t ht := by
    cases ht
    refine ⟨rfl, rfl, rfl, ?_, ?_, ?_⟩
    · intro id hid
      obtain ⟨key, hkey, rfl⟩ := Option.map_eq_some_iff.mp hid
      exact ⟨key, drawn.nonce, rfl, by simp [openSession, hkey, Rotation.open]⟩
    · intro p hp
      cases hp
    · intro p hp
      cases hp
  distinct := by simp [Rotation.open]
  known := by simp [Rotation.open]
  taken a ha := by cases ha
  spaced := spaced_nil

variable {s : Rotation} {t : Session} {x : String} {c : Call} {key : Option Key}

theorem Keeps.isCurrent (h : Keeps sha W s t) : t.isCurrent sha x = true ↔ x = s.current := by
  simp [Session.isCurrent, h.current, eq_comm]

theorem Keeps.isPrevious (h : Keeps sha W s t) : t.isPrevious sha x = true ↔ s.previous = some x := by
  simp [Session.isPrevious, h.previous, Option.map_eq_some_iff]

theorem Keeps.isRetry (h : Keeps sha W s t) {now : ℕ} :
    t.isRetry sha x now = true ↔ x ≠ s.current ∧ s.previous = some x ∧ now < t.rotatedAt + REFRESH_GRACE_MS := by
  rw [Session.isRetry, Bool.and_eq_true, Bool.and_eq_true, h.isPrevious, Bool.not_eq_true', decide_eq_true_eq,
    ← Bool.not_eq_true, h.isCurrent, and_assoc]

/-- **The wrap under the secret presented.** -/
theorem Keeps.consulted (h : Keeps sha W s t) {now : ℕ}
    (htaken : t.isCurrent sha x = true ∨ t.isRetry sha x now = true) :
    WrappedUnder W t x (t.consulted (t.isRetry sha x now)) := by
  unfold Session.consulted
  by_cases hretry : t.isRetry sha x now = true
  · rw [if_pos hretry]
    exact h.previousWrap x (h.isRetry.mp hretry).2.1
  · rw [if_neg hretry, h.isCurrent.mp (htaken.resolve_right hretry)]
    exact h.wrap

theorem WrappedUnder.unwrapGrant {retry : Bool} (h : WrappedUnder W t x (t.consulted retry)) :
    ∃ key, t.unwrapGrant W x retry = some key ∧ key.map W.id = t.grant := by
  unfold Session.unwrapGrant
  cases hgrant : t.grant with
  | none => exact ⟨none, rfl, rfl⟩
  | some id =>
    obtain ⟨key, nonce, hid, hwrap⟩ := h id hgrant
    refine ⟨some key, ?_, by rw [Option.map_some, hid]⟩
    simp [hwrap, W.unwrap_wrap, hid]

/-- A secret that is not taken ends the session or is refused. -/
theorem refresh_untaken (hclient : c.clientId = some t.clientId)
    (huntaken : ¬ (t.isCurrent sha c.secret = true ∨ t.isRetry sha c.secret c.now = true)) :
    refresh sha W t c.secret c.clientId c.now c.standing c.drawn =
      if t.isPrevious sha c.secret || t.retired.contains (sha.of c.secret) then .drop "unknown refresh token"
      else .refuse "unknown refresh token" := by
  unfold refresh
  rw [if_neg (by simp [hclient]), if_pos (by rw [Bool.or_eq_true]; exact huntaken)]

/-- A secret that is taken is the current one or a retry. -/
theorem refresh_taken {t' : Session}
    (h : refresh sha W t c.secret c.clientId c.now c.standing c.drawn = .rotate t' key) :
    t.isCurrent sha c.secret = true ∨ t.isRetry sha c.secret c.now = true := by
  by_contra huntaken
  by_cases hclient : c.clientId = some t.clientId
  · rw [refresh_untaken hclient huntaken] at h
    split_ifs at h
  · unfold refresh at h
    rw [if_pos hclient] at h
    cases h

/-- What `refresh` does where the member or the grant stands and the session is not idle. -/
theorem refresh_cases (h : Keeps sha W s t) (hclient : c.clientId = some t.clientId)
    (hstands : c.standing = .stands) (hidle : c.now < t.usedAt + IDLE_MS) :
    ((t.isCurrent sha c.secret = true ∨ t.isRetry sha c.secret c.now = true) ∧
      ∃ key, key.map W.id = t.grant ∧ refresh sha W t c.secret c.clientId c.now c.standing c.drawn =
        .rotate (t.rotate (t.isRetry sha c.secret c.now) c.now (sha.of c.drawn.secret)
          (key.map (W.wrap c.drawn.secret t.sid · c.drawn.nonce))) key) ∨
    (¬ (t.isCurrent sha c.secret = true ∨ t.isRetry sha c.secret c.now = true) ∧
      refresh sha W t c.secret c.clientId c.now c.standing c.drawn =
        if t.isPrevious sha c.secret || t.retired.contains (sha.of c.secret) then .drop "unknown refresh token"
        else .refuse "unknown refresh token") := by
  have hnot : ¬ t.usedAt + IDLE_MS ≤ c.now := not_le.mpr hidle
  by_cases htaken : t.isCurrent sha c.secret = true ∨ t.isRetry sha c.secret c.now = true
  · left
    obtain ⟨key, hunwrap, hid⟩ := (h.consulted htaken).unwrapGrant
    refine ⟨htaken, key, hid, ?_⟩
    unfold refresh
    rw [if_neg (by simp [hclient]), if_neg (by rw [Bool.or_eq_true]; exact not_not.mpr htaken),
      if_neg hnot, hstands]
    simp only [hunwrap]
  · exact .inr ⟨htaken, refresh_untaken hclient htaken⟩

/-! ## One call -/

theorem WrappedUnder.new (hid : key.map W.id = t.grant) (retry : Bool) (now : ℕ)
    (hash secret : String) (nonce : ℕ) :
    WrappedUnder W (t.rotate retry now hash (key.map (W.wrap secret t.sid · nonce))) secret
      (t.rotate retry now hash (key.map (W.wrap secret t.sid · nonce))).wrap := by
  intro id hgrant
  have hsame : (t.rotate retry now hash (key.map (W.wrap secret t.sid · nonce))).grant = t.grant := by
    cases retry <;> rfl
  have hsid : (t.rotate retry now hash (key.map (W.wrap secret t.sid · nonce))).sid = t.sid := by
    cases retry <;> rfl
  have hwrap : (t.rotate retry now hash (key.map (W.wrap secret t.sid · nonce))).wrap =
      key.map (W.wrap secret t.sid · nonce) := by cases retry <;> rfl
  rw [hsame, ← hid] at hgrant
  obtain ⟨k, rfl, rfl⟩ := Option.map_eq_some_iff.mp hgrant
  refine ⟨k, nonce, rfl, ?_⟩
  rw [hwrap, hsid]
  rfl

section

variable (h : Rotates sha W s)
include h

/-- A secret is taken: the ones before are the same, in another order, and the new one is beside them. -/
theorem Rotates.take {retry : Bool} (hkeeps : Keeps sha W (s.take t retry c) t)
    (hperm : ((s.take t retry c).retired ++ (s.take t retry c).previous.toList).Perm
      (s.retired ++ s.previous.toList ++ [s.current])) (hissued : c.secret ∈ s.issued)
    (hfresh : c.drawn.secret ∉ s.issued) (hspaced : Spaced (s.take t retry c).accepts) :
    Rotates sha W (s.take t retry c) := by
  have hne : ∀ x ∈ s.issued, x ≠ c.drawn.secret := by
    rintro x hx rfl
    exact hfresh hx
  constructor
  case session =>
    intro t' ht'
    cases ht'
    exact hkeeps
  case distinct =>
    rw [List.nodup_append]
    refine ⟨hperm.nodup_iff.mpr h.distinct, by simp, fun x hx y hy => ?_⟩
    rw [List.mem_singleton.mp hy]
    exact hne x (h.known x (hperm.mem_iff.mp hx))
  case known =>
    intro x hx
    rcases List.mem_append.mp hx with hold | hnew
    · exact List.mem_append_left _ (h.known x (hperm.mem_iff.mp hold))
    · exact List.mem_append_right _ hnew
  case taken =>
    refine List.forall_mem_append.mpr ⟨fun a ha => ?_, List.forall_mem_singleton.mpr ?_⟩
    · have hold := (h.taken a ha).1
      exact ⟨List.mem_append_left _ hold, hne _ hold⟩
    · exact ⟨List.mem_append_left _ hissued, hne _ hissued⟩
  case spaced => exact hspaced

omit h in
theorem Keeps.previousList (h : Keeps sha W s t) : t.previousHash.toList = s.previous.toList.map sha.of := by
  rw [h.previous]
  cases s.previous <;> rfl

/-- The secret now valid is taken. -/
theorem Rotates.take_current (ht : s.session = some t) (hcurrent : c.secret = s.current)
    (hfresh : c.drawn.secret ∉ s.issued) (hid : key.map W.id = t.grant) :
    Rotates sha W (s.take (t.rotate false c.now (sha.of c.drawn.secret)
      (key.map (W.wrap c.drawn.secret t.sid · c.drawn.nonce))) false c) := by
  have hkeeps := h.session t ht
  refine h.take ⟨rfl, ?_, ?_, WrappedUnder.new hid false c.now _ _ _, ?_, ?_⟩ (List.Perm.refl _) ?_ hfresh ?_
  · simp [Session.rotate, Rotation.take, hkeeps.current]
  · simp only [Session.rotate, Rotation.take, Bool.false_eq_true, if_false]
    rw [hkeeps.retired, hkeeps.previousList, ← keepRetired_map, ← keepRetired_map, keepRetired_append,
      List.map_append]
  · intro p hp id hgrant
    cases hp
    exact hkeeps.wrap id hgrant
  · intro p hp
    cases hp
    refine ⟨s.accepts, ?_, fun a ha => (h.taken a ha).2⟩
    simp [Rotation.take, Session.rotate, hcurrent]
  · rw [hcurrent]
    exact h.known _ (by simp)
  · -- the secret now valid was not taken before
    refine h.spaced.snoc fun i a ha hsame => ?_
    exact absurd (hsame.trans hcurrent) (h.taken a (List.mem_of_getElem? ha)).2

/-- The secret that was replaced is taken again. -/
theorem Rotates.take_previous (ht : s.session = some t) (hprevious : s.previous = some c.secret)
    (hgrace : c.now < t.rotatedAt + REFRESH_GRACE_MS) (hfresh : c.drawn.secret ∉ s.issued)
    (hid : key.map W.id = t.grant) :
    Rotates sha W (s.take (t.rotate true c.now (sha.of c.drawn.secret)
      (key.map (W.wrap c.drawn.secret t.sid · c.drawn.nonce))) true c) := by
  have hkeeps := h.session t ht
  refine h.take ⟨rfl, rfl, ?_, WrappedUnder.new hid true c.now _ _ _, ?_, ?_⟩ ?_ ?_ hfresh ?_
  · have hnew : [t.refreshHash] = [s.current].map sha.of := by rw [hkeeps.current, List.map_singleton]
    simp only [Session.rotate, Rotation.take, if_true]
    rw [hkeeps.retired, hkeeps.previousList, hnew, ← keepRetired_map, ← keepRetired_map, List.append_assoc,
      keepRetired_append, List.append_assoc, List.map_append, List.map_append]
  · intro p hp
    cases hp
  · intro p hp
    cases hp
  · show ((s.retired ++ [s.current] ++ s.previous.toList) ++ (none : Option String).toList).Perm _
    rw [Option.toList_none, List.append_nil, List.append_assoc, List.append_assoc]
    exact List.Perm.append_left _ List.perm_append_comm
  · exact h.known _ (by simp [hprevious])
  · -- it was taken once, last of all, by the refresh that replaced it
    obtain ⟨l, haccepts, honce⟩ := hkeeps.replaced c.secret hprevious
    refine h.spaced.snoc fun i a ha hsame => ?_
    rw [haccepts] at ha
    by_cases hi : i < l.length
    · rw [List.getElem?_append_left hi] at ha
      exact absurd hsame (honce a (List.mem_of_getElem? ha))
    · have hi' := (List.getElem?_eq_some_iff.mp ha).1
      rw [List.length_append, List.length_singleton] at hi'
      have hlast : i = l.length := by omega
      subst hlast
      have ha' : (⟨c.secret, t.rotatedAt, false⟩ : Accept) = a := by simpa using ha
      refine ⟨?_, rfl, ?_⟩
      · rw [haccepts, List.length_append, List.length_singleton]
      · rw [← ha']
        exact hgrace

/-- Nothing but the clock and whether the session stands. -/
theorem Rotates.same {session : Option Session} (now : ℕ)
    (hsession : ∀ t, session = some t → s.session = some t) :
    Rotates sha W { s with session := session, clock := now } where
  session t ht := by
    have hkeeps := h.session t (hsession t ht)
    exact { hkeeps with }
  distinct := h.distinct
  known := h.known
  taken := h.taken
  spaced := h.spaced

/-! ## Runs -/

/-- Time does not run backwards, what is drawn is new, the member or the grant stands and the session is not idle.
-/
def Calm (s : Rotation) (c : Call) : Prop :=
  s.clock ≤ c.now ∧ c.drawn.secret ∉ s.issued ∧ c.standing = .stands ∧ ∀ t ∈ s.session, c.now < t.usedAt + IDLE_MS

instance (s : Rotation) (c : Call) : Decidable (Calm s c) := by
  unfold Calm
  infer_instance

theorem step_rotates (hcalm : Calm s c) : Rotates sha W (s.step sha W c) := by
  obtain ⟨-, hfresh, hstands, hidle⟩ := hcalm
  unfold Rotation.step
  cases ht : s.session with
  | none =>
    exact h.same c.now fun t ht' => nomatch ht'
  | some t =>
    have hkeeps := h.session t ht
    have hsame : Rotates sha W { s with session := some t, clock := c.now } :=
      h.same c.now fun t' ht' => ht.trans ht'
    have hdropped : Rotates sha W { s with session := none, clock := c.now } :=
      h.same c.now fun t' ht' => nomatch ht'
    by_cases hclient : c.clientId = some t.clientId
    · rcases refresh_cases hkeeps hclient hstands (hidle t ht) with ⟨htaken, key, hid, hrefresh⟩ | ⟨-, hrefresh⟩
      · simp only [hrefresh]
        by_cases hretry : t.isRetry sha c.secret c.now = true
        · obtain ⟨-, hprevious, hgrace⟩ := hkeeps.isRetry.mp hretry
          rw [hretry]
          exact h.take_previous ht hprevious hgrace hfresh hid
        · have hcurrent := hkeeps.isCurrent.mp (htaken.resolve_right hretry)
          rw [Bool.not_eq_true] at hretry
          rw [hretry]
          exact h.take_current ht hcurrent hfresh hid
      · simp only [hrefresh]
        split_ifs
        · exact hdropped
        · exact hsame
    · have hrefuse : refresh sha W t c.secret c.clientId c.now c.standing c.drawn =
          .refuse "client_id is required, and must be the client the token was issued to" := by
        unfold refresh
        rw [if_pos hclient]
      simp only [hrefuse]
      exact hsame

/-- A secret that was replaced and is outside its grace, or one of the newest retired, ends the session. -/
theorem Rotates.reused (ht : s.session = some t) (hclient : c.clientId = some t.clientId)
    (hreused : (s.previous = some c.secret ∧ t.rotatedAt + REFRESH_GRACE_MS ≤ c.now) ∨
      c.secret ∈ keepRetired s.retired) :
    refresh sha W t c.secret c.clientId c.now c.standing c.drawn = .drop "unknown refresh token" := by
  have hkeeps := h.session t ht
  have hdistinct := h.distinct
  rw [List.nodup_append, List.nodup_append] at hdistinct
  obtain ⟨⟨-, -, hretired⟩, -, hcurrent⟩ := hdistinct
  rcases hreused with ⟨hprevious, hlate⟩ | hold
  · have huntaken : ¬ (t.isCurrent sha c.secret = true ∨ t.isRetry sha c.secret c.now = true) := by
      rintro (hcur | hretry)
      · rw [hkeeps.isCurrent] at hcur
        exact hcurrent c.secret (by simp [hprevious]) s.current (by simp) hcur
      · have hgrace := (hkeeps.isRetry.mp hretry).2.2
        omega
    rw [refresh_untaken hclient huntaken, if_pos]
    rw [Bool.or_eq_true]
    exact .inl (hkeeps.isPrevious.mpr hprevious)
  · have hmem := List.mem_of_mem_drop hold
    have huntaken : ¬ (t.isCurrent sha c.secret = true ∨ t.isRetry sha c.secret c.now = true) := by
      rintro (hcur | hretry)
      · rw [hkeeps.isCurrent] at hcur
        exact hcurrent c.secret (List.mem_append_left _ hmem) s.current (by simp) hcur
      · have hprevious := (hkeeps.isRetry.mp hretry).2.1
        exact hretired c.secret hmem c.secret (by simp [hprevious]) rfl
    rw [refresh_untaken hclient huntaken, if_pos]
    rw [Bool.or_eq_true, List.contains_iff_mem, hkeeps.retired]
    exact .inr (List.mem_map_of_mem hold)

end

/-- **Rotation of refresh secrets.** Over every sequence of calls to a session, at times that do not run
backwards, with any secrets presented, while its member or grant stands and it is not idle: at most two secrets
are taken at any time; a secret that is taken again is taken as a retry right after it was replaced, within the
grace, so none is taken more than twice; a replaced secret outside its grace and each of the newest retired end
the session; and a secret that is taken unwraps the grant's key from the wrap made under it. -/
theorem rotation (sha : Digest) (W : Wrapping Key) (code : Code Key) (sid : String) (drawn : Draw) (now : ℕ)
    (cs : List Call) (hmeets : Run.Meets (Rotation.step sha W) Calm (Rotation.open sha W code sid drawn now) cs) :
    let s := Run.exec (Rotation.step sha W) (Rotation.open sha W code sid drawn now) cs
    (∀ t ∈ s.session, ∀ (c : Call) (t' : Session) (key : Option Key),
      refresh sha W t c.secret c.clientId c.now c.standing c.drawn =
      .rotate t' key → c.secret = s.current ∨ some c.secret = s.previous) ∧
    (∀ a ∈ s.accepts, a.secret ∈ s.issued) ∧
    (∀ x, (s.accepts.filter (·.secret = x)).length ≤ 2) ∧
    (∀ i j a b, i < j → s.accepts[i]? = some a → s.accepts[j]? = some b → a.secret = b.secret →
      j = i + 1 ∧ b.retry = true ∧ b.now < a.now + REFRESH_GRACE_MS) ∧
    (∀ t ∈ s.session, ∀ c : Call, c.clientId = some t.clientId →
      (s.previous = some c.secret ∧ t.rotatedAt + REFRESH_GRACE_MS ≤ c.now) ∨ c.secret ∈ keepRetired s.retired →
      (s.step sha W c).session = none) ∧
    (∀ t ∈ s.session, ∀ c : Call, t.isCurrent sha c.secret = true ∨ t.isRetry sha c.secret c.now = true →
      (∀ id, t.grant = some id → ∃ key nonce, W.id key = id ∧
        t.consulted (t.isRetry sha c.secret c.now) = some (W.wrap c.secret t.sid key nonce)) ∧
      (c.clientId = some t.clientId → Calm s c → (s.step sha W c).session.isSome)) := by
  have hrotates : Rotates sha W (Run.exec (Rotation.step sha W) (Rotation.open sha W code sid drawn now) cs) :=
    Run.exec_inv (fun _ _ h hcalm => step_rotates h hcalm) (rotates_open sha W code sid drawn now) hmeets
  intro s
  refine ⟨?_, fun a ha => (hrotates.taken a ha).1, hrotates.spaced.count_le, hrotates.spaced, ?_, ?_⟩
  · intro t ht c t' key hrefresh
    have hkeeps := hrotates.session t ht
    rcases refresh_taken hrefresh with hcurrent | hretry
    · exact .inl (hkeeps.isCurrent.mp hcurrent)
    · exact .inr (hkeeps.isRetry.mp hretry).2.1.symm
  · intro t ht c hclient hreused
    have hdrop := hrotates.reused ht hclient hreused
    have hsession : s.session = some t := ht
    simp only [Rotation.step, hsession, hdrop]
  · intro t ht c htaken
    have hkeeps := hrotates.session t ht
    refine ⟨hkeeps.consulted htaken, ?_⟩
    rintro hclient ⟨-, -, hstands, hidle⟩
    have hsession : s.session = some t := ht
    rcases refresh_cases hkeeps hclient hstands (hidle t ht) with ⟨-, key, -, hrefresh⟩ | ⟨huntaken, -⟩
    · simp only [Rotation.step, hsession, hrefresh, Rotation.take, Option.isSome_some]
    · exact absurd htaken huntaken

/-! ## A sample -/

/-- A wrap that hides nothing. -/
def plainWrapping : Wrapping String := ⟨id, fun _ _ key _ => key, fun _ _ w => some w, fun _ _ _ _ => rfl⟩

def sampleCall (secret : String) (now : ℕ) (drawn : String) : Call :=
  ⟨secret, some "client", now, .stands, ⟨drawn, 0⟩⟩

def sampleOpen : Rotation :=
  .open .plain plainWrapping ⟨"client", .member "library" "hash", some "key", true, false⟩ "sid" ⟨"s0", 0⟩ 0

/-- A refresh, its retry, a refresh, and the secret of the lost answer. -/
def sampleCalls : List Call :=
  [sampleCall "s0" 10 "s1", sampleCall "s0" 20 "s2", sampleCall "s2" 30 "s3", sampleCall "s1" 40 "s4"]

theorem rotation_sample :
    Run.Meets (Rotation.step .plain plainWrapping) Calm sampleOpen sampleCalls ∧
    (Run.exec (Rotation.step .plain plainWrapping) sampleOpen sampleCalls).accepts =
      [⟨"s0", 10, false⟩, ⟨"s0", 20, true⟩, ⟨"s2", 30, false⟩] ∧
    (Run.exec (Rotation.step .plain plainWrapping) sampleOpen sampleCalls).session = none ∧
    ∀ x, ((Run.exec (Rotation.step .plain plainWrapping) sampleOpen sampleCalls).accepts.filter
      (·.secret = x)).length ≤ 2 := by
  have hmeets : Run.Meets (Rotation.step .plain plainWrapping) Calm sampleOpen sampleCalls := by decide +kernel
  exact ⟨hmeets, by decide +kernel, by decide +kernel,
    (rotation .plain plainWrapping _ _ _ _ sampleCalls hmeets).2.2.1⟩

end DenEdge.OAuth
