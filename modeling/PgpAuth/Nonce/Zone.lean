import PgpAuth.Nonce.Redis

/-!
# What a node's zone remembers

`Remembers` says that the zone holds a nonce under a given expiry. A call leaves such an
entry alone until the expiry has come (`Remembers.nonceLocal`), turns the nonce down while
it is there (`declined_of_remembers`), and makes one when it accepts (`remembers_of_ok`).
-/

namespace PgpAuth

open Lib

def Remembers (st : NonceState) (nonce : Bytes) (exp : Int) : Prop :=
  ∃ n ∈ st.zone.queue, n.data = nonce ∧ n.expire = exp

section

variable (ops : ShmOps NonceNode) (nc : LocConf) (vr : VerifyResult) (nonce : Bytes) (exp : Int)
  (env : NonceEnv) (st : NonceState)

/-- A call reaches the zone, or it fails and changes nothing. -/
theorem nonceLocal_cases :
    (nc.nonceZone = true ∧ nonce.length ≤ 65535 ∧
      (nonceLocal ops nc vr nonce exp env st).1 =
        (nonceMemoryLocked ops st.zone nonce exp env.now env.slab).1 ∧
      (nonceLocal ops nc vr nonce exp env st).2.2 =
        { st with zone := (nonceMemoryLocked ops st.zone nonce exp env.now env.slab).2 }) ∨
    (¬(nc.nonceZone = true ∧ nonce.length ≤ 65535) ∧
      (nonceLocal ops nc vr nonce exp env st).1 = .error ∧
      (nonceLocal ops nc vr nonce exp env st).2.2 = st) := by
  unfold nonceLocal nonceMemory LocConf.zone?
  cases nc.nonceZone with
  | false => exact .inr ⟨by simp, rfl, rfl⟩
  | true =>
      simp only [if_true]
      split
      · rename_i hLong
        exact .inr ⟨by omega, rfl, rfl⟩
      · rename_i hShort
        exact .inl ⟨trivial, by omega, rfl, rfl⟩

variable {ops nc vr nonce exp env st}

theorem nonceLocal_wf (h : st.zone.Wf ops) :
    (nonceLocal ops nc vr nonce exp env st).2.2.zone.Wf ops := by
  rcases nonceLocal_cases ops nc vr nonce exp env st with ⟨-, -, -, hst⟩ | ⟨-, -, hst⟩
  · rw [hst]
    exact nonceMemoryLocked_wf h
  · rw [hst]
    exact h

/-- An entry that has not expired stays. -/
theorem Remembers.nonceLocal (h : st.zone.Wf ops) {nonce' : Bytes} {exp' : Int}
    (hRem : Remembers st nonce' exp') (hLive : env.now < exp') :
    Remembers (nonceLocal ops nc vr nonce exp env st).2.2 nonce' exp' := by
  rcases nonceLocal_cases ops nc vr nonce exp env st with ⟨-, -, -, hst⟩ | ⟨-, -, hst⟩
  · obtain ⟨n, hn, hd, rfl⟩ := hRem
    rw [hst]
    exact ⟨n, mem_queue_of_live h rfl hn hLive, hd, rfl⟩
  · rwa [hst]

theorem remembers_of_ok (h : st.zone.Wf ops)
    (hOk : (nonceLocal ops nc vr nonce exp env st).1 = .ok) :
    Remembers (nonceLocal ops nc vr nonce exp env st).2.2 nonce exp := by
  rcases nonceLocal_cases ops nc vr nonce exp env st with ⟨-, -, hrc, hst⟩ | ⟨-, hrc, -⟩
  · rw [hst]
    rw [hrc] at hOk
    exact ⟨_, mem_queue_of_ok h (Prod.ext hOk rfl), rfl, rfl⟩
  · rw [hrc] at hOk
    cases hOk

/-- While the entry lives, the nonce is turned down wherever the zone is reached. -/
theorem declined_of_remembers (h : st.zone.Wf ops) (hRem : Remembers st nonce exp)
    (hLive : env.now < exp) (hZone : nc.nonceZone = true) (hLen : nonce.length ≤ 65535) :
    (nonceLocal ops nc vr nonce exp env st).1 = .declined := by
  rcases nonceLocal_cases ops nc vr nonce exp env st with ⟨-, -, hrc, -⟩ | ⟨hno, -⟩
  · obtain ⟨n, hn, hd, rfl⟩ := hRem
    rw [hrc]
    exact declined_of_live h rfl hn hLive hd
  · exact absurd ⟨hZone, hLen⟩ hno

theorem not_ok_of_remembers (h : st.zone.Wf ops) (hRem : Remembers st nonce exp)
    (hLive : env.now < exp) : (nonceLocal ops nc vr nonce exp env st).1 ≠ .ok := by
  rcases nonceLocal_cases ops nc vr nonce exp env st with ⟨hZone, hLen, -, -⟩ | ⟨-, hrc, -⟩
  · rw [declined_of_remembers h hRem hLive hZone hLen]
    decide
  · rw [hrc]
    decide

end

end PgpAuth
