import Orchestract.Operations.Histories

/-!
# The life of a share link

A link is issued once. After that it can be revoked and its last access is recorded; what it
exposes, its token, its password and its end stay as they were issued.
-/

namespace Orchestract

set_option autoImplicit false

/-- The same link at a later time. -/
structure ShareLink.Continues (l l' : ShareLink) : Prop where
  id : l'.id = l.id
  contractId : l'.contractId = l.contractId
  token : l'.token = l.token
  scope : l'.scope = l.scope
  passwordHash : l'.passwordHash = l.passwordHash
  allowDownload : l'.allowDownload = l.allowDownload
  expiresAt : l'.expiresAt = l.expiresAt
  documents : l'.documents = l.documents
  revoked : l.revokedAt.isSome = true → l'.revokedAt = l.revokedAt

namespace ShareLink

theorem continues_refl (l : ShareLink) : l.Continues l := ⟨rfl, rfl, rfl, rfl, rfl, rfl, rfl, rfl, fun _ => rfl⟩

theorem continues_trans {l l₁ l' : ShareLink} (h : l.Continues l₁) (h' : l₁.Continues l') : l.Continues l' where
  id := h'.id.trans h.id
  contractId := h'.contractId.trans h.contractId
  token := h'.token.trans h.token
  scope := h'.scope.trans h.scope
  passwordHash := h'.passwordHash.trans h.passwordHash
  allowDownload := h'.allowDownload.trans h.allowDownload
  expiresAt := h'.expiresAt.trans h.expiresAt
  documents := h'.documents.trans h.documents
  revoked hrevoked := by
    have h₁ := h.revoked hrevoked
    exact (h'.revoked (h₁ ▸ hrevoked)).trans h₁

theorem continues_revoke (l : ShareLink) (now : Nat) : l.Continues (l.revoke now) := by
  unfold revoke
  split
  · rename_i hnone
    exact { l.continues_refl with revoked := fun hsome => by simp [hnone] at hsome }
  · exact l.continues_refl

theorem continues_recordAccess (l : ShareLink) (now : Nat) : l.Continues (l.recordAccess now) :=
  { l.continues_refl with revoked := fun _ => rfl }

/-- A link that is revoked or has expired is not active again. -/
theorem continues_inactive {l l' : ShareLink} {now now' : Nat} (h : l.Continues l') (hnow : now ≤ now')
    (hinactive : l.isActive now = false) : l'.isActive now' = false := by
  unfold isActive at hinactive ⊢
  rw [h.expiresAt]
  rcases Bool.and_eq_false_iff.mp hinactive with hrevoked | hexpired
  · have hsome : l.revokedAt.isSome = true := by
      cases hat : l.revokedAt with
      | none => simp [hat] at hrevoked
      | some at' => rfl
    rw [h.revoked hsome, hrevoked, Bool.false_and]
  · have hlate : l.expiresAt ≤ now' := (not_lt.mp (of_decide_eq_false hexpired)).trans hnow
    rw [decide_eq_false (not_lt.mpr hlate), Bool.and_false]

end ShareLink

/-- What `create_link` guarantees of the documents of a link. -/
structure ShareLink.Issued (w : World) (l : ShareLink) : Prop where
  nodup : l.documents.Nodup
  nonempty : l.scope = .documents → l.documents ≠ []
  own : ∀ id ∈ l.documents, ∃ d, w.db.documents.get id = some d ∧ d.contractId = l.contractId

/-- The tables of links that a change can leave: the same one, or one link is issued or changed. -/
inductive LinksAfter (w : World) : Table ShareLink → Prop
  | same : LinksAfter w w.db.shareLinks
  | issued {draft new : ShareLink} {t : Table ShareLink} : draft.Issued w →
      w.db.shareLinks.insert draft = some (new, t) → LinksAfter w t
  | changed {l l' : ShareLink} {t : Table ShareLink} : l ∈ w.db.shareLinks.rows → l.Continues l' →
      w.db.shareLinks.update l' = some t → LinksAfter w t

theorem links_next (s : System) (c : Change) : LinksAfter s.world (s.next c).world.db.shareLinks := by
  have hunit : ∀ {α : Type} {m : UnitOfWork α}, (∀ a w', m s.world = .ok (a, w') →
      LinksAfter s.world w'.db.shareLinks) → LinksAfter s.world (Operation.unit m s).2.world.db.shareLinks :=
    fun h => unit_world (I := fun w => LinksAfter s.world w.db.shareLinks) h .same
  by_cases hsite : Site.shareLinks ∈ c.footprint
  · cases c with
    | call i =>
      obtain ⟨env, operation⟩ := i
      cases operation with
      | createLink contractId scope allowDownload expiresInHours createdBy documentIds rawPassword =>
        refine hunit fun l w' hok => ?_
        obtain ⟨_, ids, _, hnodup, hnonempty, hown, hadd⟩ := SharingService.createLink_ok hok
        obtain ⟨_, t, ht, rfl⟩ := (add_ok_iff _ l s.world w').mp hadd
        refine .issued ⟨?_, fun hscope => ?_, fun id hid => ?_⟩ ht
        · dsimp only
          split
          · exact hnodup
          · exact List.nodup_nil
        · simp only [if_pos hscope]
          exact hnonempty hscope
        · dsimp only at hid
          split at hid
          · exact hown id hid
          · cases hid
      | revokeLink contractId linkId =>
        refine hunit fun _ w' hok => ?_
        obtain ⟨l, hl, _, hsave⟩ := revoke_ok hok
        obtain ⟨_, t, ht, rfl⟩ := (save_ok_iff _ s.world w').mp hsave
        exact .changed (Table.get_eq_some_iff.mp hl).1 (l.continues_revoke env.now) ht
      | _ => simp [Change.footprint, Operation.footprint] at hsite
    | visit env token =>
      refine hunit fun _ w' hok => ?_
      rcases SharingService.markAccessed_ok hok with rfl | ⟨l, hl, hsave⟩
      · exact .same
      · obtain ⟨_, t, ht, rfl⟩ := (save_ok_iff _ s.world w').mp hsave
        exact .changed hl (l.continues_recordAccess env.now) ht
    | _ => simp [Change.footprint] at hsite
  · have hsame : (s.next c).world.db.shareLinks = s.world.db.shareLinks := next_same hsite
    rw [hsame]
    exact .same

/-- A link that goes on can be written. -/
theorem save_continues {w : World} {r r' : ShareLink} (hs : Sound w) (hr : r ∈ w.db.shareLinks.rows)
    (h : r.Continues r') :
    ∃ t, w.db.shareLinks.update r' = some t ∧ save r' w = .ok ((), { w with db := { w.db with shareLinks := t } }) := by
  have hkeys : Row.keys r' = Row.keys r := by
    change [(⟨"share_links_token", 0, r'.token⟩ : UniqueKey)] = [⟨"share_links_token", 0, r.token⟩]
    rw [h.token]
  have hrefs : refsExist r' w.db = refsExist r w.db := by
    unfold refsExist
    change (Ref.mk .contract r'.contractId :: r'.documents.map (⟨.document, ·⟩)).all _ =
      (Ref.mk .contract r.contractId :: r.documents.map (⟨.document, ·⟩)).all _
    rw [h.contractId, h.documents]
  obtain ⟨w', hsave⟩ := save_same_keys hr h.id hkeys (hrefs.trans (hs.refsExist hr))
  obtain ⟨_, t, ht, rfl⟩ := (save_ok_iff _ w w').mp hsave
  exact ⟨t, ht, hsave⟩

/-! ## Runs -/

/-- Every link is still there, and the same. -/
def World.LinksContinue (w w' : World) : Prop :=
  ∀ id l, w.db.shareLinks.get id = some l → ∃ l', w'.db.shareLinks.get id = some l' ∧ l.Continues l'

theorem linksContinue_refl (w : World) : w.LinksContinue w := fun _ l hl => ⟨l, hl, l.continues_refl⟩

theorem linksContinue_trans {w w₁ w' : World} (h : w.LinksContinue w₁) (h' : w₁.LinksContinue w') :
    w.LinksContinue w' := by
  intro id l hl
  obtain ⟨l₁, hl₁, hcontinues⟩ := h id l hl
  obtain ⟨l', hl', hcontinues'⟩ := h' id l₁ hl₁
  exact ⟨l', hl', ShareLink.continues_trans hcontinues hcontinues'⟩

theorem linksContinue_mem {w w' : World} (h : w.LinksContinue w') {l : ShareLink}
    (hl : l ∈ w.db.shareLinks.rows) : ∃ l' ∈ w'.db.shareLinks.rows, l.Continues l' := by
  obtain ⟨l', hl', hcontinues⟩ := h l.id l (Table.get_eq_some_iff.mpr ⟨hl, rfl⟩)
  exact ⟨l', (Table.get_eq_some_iff.mp hl').1, hcontinues⟩

theorem linksContinue_next (s : System) (c : Change) : s.world.LinksContinue (s.next c).world := by
  intro id l hl
  have hafter := links_next s c
  generalize (s.next c).world.db.shareLinks = t at hafter
  cases hafter with
  | same => exact ⟨l, hl, l.continues_refl⟩
  | issued _ ht => exact ⟨l, Table.get_of_insert ht hl, l.continues_refl⟩
  | changed hmem hcontinues ht =>
    rename_i r r'
    rw [Table.get_update ht]
    by_cases hid : id = Row.id r'
    · have hr : s.world.db.shareLinks.get id = some r :=
        Table.get_eq_some_iff.mpr ⟨hmem, hcontinues.id.symm.trans hid.symm⟩
      obtain rfl := Option.some.inj (hl.symm.trans hr)
      exact ⟨r', by rw [if_pos hid, hl]; rfl, hcontinues⟩
    · exact ⟨l, by rw [if_neg hid]; exact hl, l.continues_refl⟩

theorem linksContinue_run (s : System) (changes : List Change) :
    s.world.LinksContinue (Runs.run System.next s changes).world :=
  Runs.run_relates (R := fun s s' : System => s.world.LinksContinue s'.world)
    (fun s => linksContinue_refl s.world) linksContinue_trans linksContinue_next s changes

theorem issued_holds {w w' : World} {l l' : ShareLink} (h : l.Issued w) (hholds : w.Holds w')
    (hl : l'.contractId = l.contractId ∧ l'.scope = l.scope ∧ l'.documents = l.documents) : l'.Issued w' := by
  obtain ⟨hcontract, hscope, hdocuments⟩ := hl
  refine ⟨hdocuments ▸ h.nodup, fun hs => ?_, fun id hid => ?_⟩
  · rw [hdocuments]
    exact h.nonempty (hscope ▸ hs)
  · obtain ⟨d, hd, hown⟩ := h.own id (hdocuments ▸ hid)
    obtain ⟨d', hd', hholder⟩ := hholds.documents id d hd
    exact ⟨d', hd', hholder.trans (hown.trans hcontract.symm)⟩

/-- Every link that was ever issued exposes documents of its own contract. -/
theorem issued_after (files : Bucket → String → Option Bytes) (changes : List Change) :
    ∀ l ∈ (System.after files changes).world.db.shareLinks.rows, l.Issued (System.after files changes).world := by
  refine Runs.run_invariant (I := fun s : System => ∀ l ∈ s.world.db.shareLinks.rows, l.Issued s.world)
    (fun s c hs l hl => ?_) (fun l hl => by cases hl) changes
  have hholds := next_holds s c
  have hafter := links_next s c
  generalize (s.next c).world.db.shareLinks = t at hafter hl
  cases hafter with
  | same => exact issued_holds (hs l hl) hholds ⟨rfl, rfl, rfl⟩
  | issued hdraft ht =>
    rcases (Table.mem_insert_iff ht).mp hl with hl | rfl
    · exact issued_holds (hs l hl) hholds ⟨rfl, rfl, rfl⟩
    · obtain ⟨rfl, _, _⟩ := Table.insert_eq_some ht
      exact issued_holds hdraft hholds ⟨rfl, rfl, rfl⟩
  | changed hmem hcontinues ht =>
    rcases Table.mem_update ht hl with rfl | ⟨hl, _⟩
    · exact issued_holds (hs _ hmem) hholds
        ⟨hcontinues.contractId, hcontinues.scope, hcontinues.documents⟩
    · exact issued_holds (hs l hl) hholds ⟨rfl, rfl, rfl⟩

end Orchestract
