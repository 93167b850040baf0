import WasiAuth.Base.Succession
import WasiAuth.Postgres.Revocation

/-! # Families of refresh tokens

The tokens of a family are a succession (`Base/Succession.lean`): a rotation names its successor in the row it
rotates and appends the successor. Revocations come from many commands and touch nothing else in a row
(`OnlyRevokes`), so the succession is a matter of two commands, issue and rotation. An issue starts a family;
its id is drawn by `uuid_v7` when the pair is issued, and the runs here are those in which it is a new one.
-/

namespace WasiAuth

open Relational Relation Transition

/-- `t` was rotated and `t'` is the token that was issued for it. -/
structure RefreshToken.Precedes (t t' : RefreshToken) : Prop where
  rotated : t.rotatedAtMs.isSome
  successor : t.successorHash = some t'.tokenHash
  session : t'.sessionId = t.sessionId

structure RefreshToken.Unrotated (t : RefreshToken) : Prop where
  rotatedAtMs : t.rotatedAtMs = none
  successorHash : t.successorHash = none

/-- Neither rotated nor revoked. -/
def RefreshToken.active (t : RefreshToken) : Prop := t.rotatedAtMs = none ∧ t.revokedAtMs = none

def Db.family (db : Db) (familyId : Uuid) : List RefreshToken :=
  db.refreshTokens.rows.filter fun t => decide (t.familyId = familyId)

theorem Db.mem_family {db : Db} {familyId : Uuid} {t : RefreshToken} :
    t ∈ db.family familyId ↔ t ∈ db.refreshTokens ∧ t.familyId = familyId := by
  simp [Db.family, Table.mem_def]

/-- Every family is one succession of tokens. -/
def Db.Linear (db : Db) : Prop :=
  ∀ familyId, Succession RefreshToken.Precedes RefreshToken.Unrotated (db.family familyId)

def Command.newFamily : Command → Option Uuid
  | .issueTokenPair p => some p.familyId
  | _ => none

def issuesFreshFamily (db : Db) (c : Command) : Prop :=
  ∀ familyId ∈ c.newFamily, ∀ t ∈ db.refreshTokens.rows, t.familyId ≠ familyId

instance (db : Db) (c : Command) : Decidable (issuesFreshFamily db c) :=
  inferInstanceAs (Decidable (∀ familyId ∈ c.newFamily, ∀ t ∈ db.refreshTokens.rows, t.familyId ≠ familyId))

/-! ## Commands that only revoke -/

namespace OnlyRevokes

variable {db db' : Db}

theorem revokeFamily (p : RotateRefreshToken) (token : RefreshToken) (session : Session) :
    OnlyRevokes db (rotateRefreshToken.revokeFamily p token session db).2 :=
  (KeepsCredentials.of_writes .revokeFamily).refreshTokens

/-- Revocations keep the succession. -/
theorem linear (h : OnlyRevokes db db') (hdb : db.Linear) : db'.Linear := by
  obtain ⟨g, hg, -, hrows⟩ := h
  have hfamily (familyId : Uuid) : db'.family familyId = (db.family familyId).map g := by
    unfold Db.family
    rw [hrows, List.filter_map]
    congr 1
    exact List.filter_congr fun t _ => by rw [Function.comp_apply, hg t]
  intro familyId
  rw [hfamily]
  refine (hdb familyId).map (fun a b hab => ?_) fun a ha => ?_
  · rw [hg a, hg b]
    exact ⟨hab.rotated, hab.successor, hab.session⟩
  · rw [hg a]
    exact ⟨ha.rotatedAtMs, ha.successorHash⟩

end OnlyRevokes

/-! ## Issue and rotation -/

section Commands

variable {db db' : Db}

theorem RefreshToken.not_precedes {t : RefreshToken} (h : t.rotatedAtMs = none) (t' : RefreshToken) :
    ¬ t.Precedes t' :=
  fun hp => by simpa [h] using hp.rotated

theorem unrotated_fresh (tokenHash : Bytes) (sessionId familyId : Uuid) (expiresAtMs : Int) :
    (freshRefreshToken tokenHash sessionId familyId expiresAtMs).Unrotated := ⟨rfl, rfl⟩

/-- An issue starts a family. -/
theorem linear_of_issueTokenPair {p r} (h : issueTokenPair p db = .ok (r, db'))
    (hfresh : ∀ t ∈ db.refreshTokens.rows, t.familyId ≠ p.familyId) (hdb : db.Linear) : db'.Linear := by
  rcases issueTokenPair_cases h with ⟨-, rfl⟩ | ⟨session, _, tokens, -, -, hins, rfl⟩
  · exact hdb
  · intro familyId
    have hrows : Db.family { db with refreshTokens := tokens } familyId = db.family familyId ++
        [freshRefreshToken p.tokenHash session.sessionId p.familyId p.expiresAtMs].filter
          (fun t => decide (t.familyId = familyId)) := by
      simp only [Db.family, (Table.insertOr_eq_ok hins).2, List.filter_append]
    rw [hrows]
    by_cases hf : p.familyId = familyId
    · have hnone : db.family familyId = [] :=
        List.filter_eq_nil_iff.2 fun t ht => by simpa [← hf] using hfresh t ht
      have hown : (freshRefreshToken p.tokenHash session.sessionId p.familyId p.expiresAtMs).familyId = familyId := hf
      simpa [hnone, hown] using .singleton (unrotated_fresh _ _ _ _)
    · have hother : (freshRefreshToken p.tokenHash session.sessionId p.familyId p.expiresAtMs).familyId ≠ familyId := hf
      simpa [hother] using hdb familyId

theorem filter_family_set {token row : RefreshToken} (hfind : db.refreshTokens.find? row.tokenHash = some token)
    (hfamily : row.familyId = token.familyId) (familyId : Uuid) :
    (db.refreshTokens.set row).rows.filter (fun t => decide (t.familyId = familyId)) =
      (db.family familyId).map fun t => if t.tokenHash = row.tokenHash then row else t := by
  obtain ⟨hmem, hkey⟩ := Table.find?_eq_some.1 hfind
  simp only [Table.set, List.filter_map, Db.family]
  congr 1
  refine List.filter_congr fun t ht => ?_
  rw [Function.comp_apply]
  split
  · rename_i hk
    rw [hfamily, Table.eq_of_key ht hmem (hk.trans hkey.symm)]
  · rfl

/-- The rotated token is the last of its family: its row names the successor, which follows it. -/
theorem linear_of_rotated {p : RotateRefreshToken} {token : RefreshToken} {tokens : Table RefreshToken.tokenHash}
    (hfind : db.refreshTokens.find? p.tokenHash = some token) (hunrotated : token.rotatedAtMs = none)
    (hins : (db.refreshTokens.set (p.rotatedRow token)).insertOr SqlError.uniqueViolation
      (freshRefreshToken p.successorHash token.sessionId token.familyId p.expiresAtMs) = .ok tokens)
    (hdb : db.Linear) : Db.Linear { db with refreshTokens := tokens } := by
  obtain ⟨hmem, hkey⟩ := Table.find?_eq_some.1 hfind
  have hrow : db.refreshTokens.find? (p.rotatedRow token).tokenHash = some token :=
    (congrArg db.refreshTokens.find? hkey).trans hfind
  set new := freshRefreshToken p.successorHash token.sessionId token.familyId p.expiresAtMs
  intro familyId
  have hrows : Db.family { db with refreshTokens := tokens } familyId =
      ((db.family familyId).map fun t => if t.tokenHash = token.tokenHash then p.rotatedRow token else t) ++
        [new].filter (fun t => decide (t.familyId = familyId)) := by
    simp only [Db.family, (Table.insertOr_eq_ok hins).2, List.filter_append]
    rw [filter_family_set hrow rfl]
    rfl
  rw [hrows]
  by_cases hf : token.familyId = familyId
  · obtain ⟨init, hinit⟩ := (hdb familyId).eq_append (Db.mem_family.2 ⟨hmem, hf⟩)
      (RefreshToken.not_precedes hunrotated)
    have hsucc := hdb familyId
    rw [hinit] at hsucc
    have hothers : ∀ t ∈ init, t.tokenHash ≠ token.tokenHash := by
      have hnodup : ((init ++ [token]).map RefreshToken.tokenHash).Nodup :=
        hinit ▸ db.refreshTokens.nodup.sublist (List.filter_sublist.map _)
      rw [List.map_append, List.nodup_append] at hnodup
      exact fun t ht => hnodup.2.2 _ (List.mem_map_of_mem ht) _ (by simp)
    have hmap : init.map (fun t => if t.tokenHash = token.tokenHash then p.rotatedRow token else t) = init :=
      (List.map_congr_left fun t ht => if_neg (hothers t ht)).trans (List.map_id _)
    have hown : new.familyId = familyId := hf
    have hextended : Succession RefreshToken.Precedes RefreshToken.Unrotated (init ++ [p.rotatedRow token, new]) :=
      hsucc.extend (fun t ht => ⟨ht.rotated, ht.successor, ht.session⟩) ⟨rfl, rfl, rfl⟩ (unrotated_fresh _ _ _ _)
    simpa [hinit, hmap, hown] using hextended
  · have hothers : ∀ t ∈ db.family familyId, t.tokenHash ≠ token.tokenHash := by
      intro t ht hk
      obtain ⟨ht, hfamily⟩ := Db.mem_family.1 ht
      exact hf (Table.eq_of_key ht hmem hk ▸ hfamily)
    have hother : new.familyId ≠ familyId := hf
    simpa [List.map_congr_left fun t ht => if_neg (hothers t ht), hother] using hdb familyId

theorem linear_of_rotateRefreshToken {p r}
    (h : rotateRefreshToken p db = .ok (r, db')) (hdb : db.Linear) : db'.Linear := by
  cases rotateRefreshToken_cases h with
  | invalid => exact hdb
  | rotated hc _ hunrotated hins => exact linear_of_rotated hc.findToken hunrotated hins hdb
  | replayed => exact hdb
  | reuse => exact (OnlyRevokes.revokeFamily _ _ _).linear hdb

/-- What a command does to the refresh tokens. -/
inductive TokenStep (db db' : Db) : Command → Prop
  | revokes {c : Command} (h : OnlyRevokes db db') : TokenStep db db' c
  | issue {p : IssueTokenPair} {r : Option Unit} (h : issueTokenPair p db = .ok (r, db')) :
      TokenStep db db' (.issueTokenPair p)
  | rotate {p : RotateRefreshToken} {r : RotationOutcome} (h : rotateRefreshToken p db = .ok (r, db')) :
      TokenStep db db' (.rotateRefreshToken p)

/-- Only an issue and a rotation do more to the tokens than revoke them. -/
theorem tokenStep_of_execute {c : Command} (h : c.execute db = .ok db') : TokenStep db db' c := by
  cases hc : c.ownsCredentials with
  | false => exact .revokes (keepsCredentials_of_execute hc h).refreshTokens
  | true =>
    have hframe := (frame_of_execute h).refreshTokens
    cases c <;> simp only [Command.execute, written_eq_ok] at h <;> obtain ⟨r, h⟩ := h
    case issueTokenPair => exact .issue h
    case rotateRefreshToken => exact .rotate h
    all_goals cases hc <;> exact .revokes (.of_same (hframe (by simp [Command.writes])))

theorem tokenStep_of_next {c : Command} (h : postgres.next db c = some db') : TokenStep db db' c := by
  rcases step_cases h with h | rfl
  · exact tokenStep_of_execute h
  · exact .revokes (.of_same rfl)

/-- Every family is a succession, in every run with new family ids. -/
theorem Db.Linear.of_reachableBy (h : ReachableBy postgres issuesFreshFamily db) : db.Linear := by
  refine h.invariant (fun _ => .nil) fun hs hok hn => ?_
  cases tokenStep_of_next hn with
  | revokes h => exact h.linear hs
  | @issue p _ h => exact linear_of_issueTokenPair h (hok p.familyId rfl) hs
  | rotate h => exact linear_of_rotateRefreshToken h hs

/-- At most one token of a family is active. -/
theorem Db.Linear.eq_of_active (hdb : db.Linear) {t t' : RefreshToken} (ht : t ∈ db.refreshTokens)
    (ht' : t' ∈ db.refreshTokens) (hf : t.familyId = t'.familyId) (ha : t.active) (ha' : t'.active) : t = t' :=
  (hdb t'.familyId).eq_of_ends (Db.mem_family.2 ⟨ht, hf⟩) (Db.mem_family.2 ⟨ht', rfl⟩)
    (RefreshToken.not_precedes ha.1) (RefreshToken.not_precedes ha'.1)

/-- Reuse revokes the session of the token. -/
theorem revoked_of_reuseDetected {p : RotateRefreshToken} (h : rotateRefreshToken p db = .ok (.reuseDetected, db')) :
    ∃ token s, db.refreshTokens.find? p.tokenHash = some token ∧ db'.sessions.find? token.sessionId = some s ∧
      s.revokedAtMs.isSome := by
  generalize ho : RotationOutcome.reuseDetected = r at h
  cases rotateRefreshToken_cases h with
  | invalid => cases ho
  | rotated => cases ho
  | replayed => cases ho
  | @reuse token session user hc _ =>
    have hid : session.sessionId = token.sessionId := (Table.find?_eq_some.1 hc.findSession).2
    obtain ⟨s, hs, hr⟩ := revoked_of_update
      (p := fun s => decide (s.sessionId = token.sessionId ∧ s.revokedAtMs = none))
      (f := fun s => { s with revokedAtMs := some p.nowMs, sessionRevision := s.sessionRevision + 1 })
      (fun _ => rfl) (fun _ => rfl) hc.findSession fun hr => by simp [hr, hid]
    exact ⟨token, s, hc.findToken, hs, hr⟩

end Commands

/-- **Families of refresh tokens.** In every reachable state each family is one linear chain of successors
with at most one token that is neither rotated nor revoked; and after a rotation that reports reuse, no token
of the session is rotated or replayed in any later state, whatever its family. -/
theorem families_are_linear {db : Db} (h : ReachableBy postgres issuesFreshFamily db) :
    (∀ familyId, Succession RefreshToken.Precedes RefreshToken.Unrotated (db.family familyId)) ∧
    (∀ t ∈ db.refreshTokens, ∀ t' ∈ db.refreshTokens, t.familyId = t'.familyId → t.active → t'.active → t = t') ∧
    ∀ (p : RotateRefreshToken) (db₁ : Db), rotateRefreshToken p db = .ok (.reuseDetected, db₁) →
      ∃ token, db.refreshTokens.find? p.tokenHash = some token ∧
        ∀ db₂, Steps postgres anyStep db₁ db₂ → ∀ (q : RotateRefreshToken) (other : RefreshToken),
          db₂.refreshTokens.find? q.tokenHash = some other → other.sessionId = token.sessionId →
            ∀ r db₃, rotateRefreshToken q db₂ = .ok (r, db₃) → r.accepted = false := by
  have hlinear := Db.Linear.of_reachableBy h
  refine ⟨hlinear, fun t ht t' ht' hf ha ha' => hlinear.eq_of_active ht ht' hf ha ha', fun p db₁ hreuse => ?_⟩
  obtain ⟨token, s, hfind, hs, hr⟩ := revoked_of_reuseDetected hreuse
  exact ⟨token, hfind, fun db₂ hrun q other => ((Lasting.of_run hrun).refuses hs hr).refresh q other⟩

/-- The token of the second login is presented at `nowMs`, to be replaced by the token `successor`. -/
def secondRefresh (successor : Bytes) (nowMs : Int) : RotateRefreshToken :=
  { tokenHash := [20], sessionId := none, successorHash := successor, successorKeyVersion := "v1"
    successorCiphertext := successor, replayUntilMs := nowMs + 10, nowMs := nowMs, expiresAtMs := 1000000
    sessionExpiresAtMs := 1000000 }

/-- The token is rotated, and presented again after its replay window. -/
theorem second_login_family : ∃ db db₁ token, ReachableBy postgres issuesFreshFamily db ∧
    (db.family ⟨6⟩).map RefreshToken.tokenHash = [[20], [21]] ∧
    Succession RefreshToken.Precedes RefreshToken.Unrotated (db.family ⟨6⟩) ∧
    rotateRefreshToken (secondRefresh [22] 20) db = .ok (.reuseDetected, db₁) ∧
    db.refreshTokens.find? [20] = some token ∧
      ∀ (q : RotateRefreshToken) (other : RefreshToken), db₁.refreshTokens.find? q.tokenHash = some other →
        other.sessionId = token.sessionId → ∀ r db₂, rotateRefreshToken q db₁ = .ok (r, db₂) → r.accepted = false := by
  obtain ⟨db, hreach, hp⟩ := exists_reachableBy_of_run postgres (fun db c => decide (issuesFreshFamily db c))
    (foundAcme ++ secondLogin ++ [.rotateRefreshToken (secondRefresh [21] 0)])
    (fun db : Db => decide ((db.family ⟨6⟩).map RefreshToken.tokenHash = [[20], [21]]) &&
      ((rotateRefreshToken (secondRefresh [22] 20) db).toOption.any fun r : RotationOutcome × Db =>
        decide (r.1 = .reuseDetected)))
    (by decide +kernel) (fun h => of_decide_eq_true h)
  obtain ⟨hfamily, hreuse⟩ := Bool.and_eq_true_iff.1 hp
  obtain ⟨⟨r, db₁⟩, hresult, hr⟩ := exists_ok_of_any hreuse
  obtain rfl : r = .reuseDetected := of_decide_eq_true hr
  obtain ⟨hlinear, -, hafter⟩ := families_are_linear hreach
  obtain ⟨token, hfind, hdead⟩ := hafter _ _ hresult
  exact ⟨db, db₁, token, hreach, of_decide_eq_true hfamily, hlinear _, hresult, hfind, hdead db₁ (.refl _)⟩

end WasiAuth
