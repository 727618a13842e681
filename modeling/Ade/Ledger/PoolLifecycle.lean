import Ade.Ledger.Delegation

/-! Pools from registration to retirement, over the epochs. -/

namespace Ade.Ledger
open Std Library

/-- What a certificate does to the pools. -/
inductive PoolChange where
  | keep
  | register (cert : PoolRegistrationCert)
  | retire (poolId : PoolId) (epoch : EpochNo)
deriving DecidableEq, Repr

namespace PoolChange

def apply (pool : PoolState) : PoolChange → PoolState
  | keep => pool
  | register cert =>
      let retiring := pool.retiring.erase cert.poolId
      if pool.pools.contains cert.poolId then
        { pool with futurePools := pool.futurePools.insert cert.poolId cert.params, retiring }
      else { pool with pools := pool.pools.insert cert.poolId cert.params, retiring }
  | retire poolId epoch => { pool with retiring := pool.retiring.insert poolId epoch }

def registers (poolId : PoolId) : PoolChange → Bool
  | register cert => cert.poolId = poolId
  | _ => false

def retires (poolId : PoolId) : PoolChange → Option EpochNo
  | retire retired epoch => if retired = poolId then some epoch else none
  | _ => none

end PoolChange

def Certificate.poolChange : Certificate → PoolChange
  | poolRegistration cert => .register cert
  | poolRetirement poolId epoch => .retire poolId epoch
  | _ => .keep

def ConwayCert.poolChange : ConwayCert → PoolChange
  | poolRegistration cert => .register cert
  | poolRetirement poolId epoch => .retire poolId epoch
  | _ => .keep

/-! ## Runs over epochs -/

structure EpochCerts where
  cert : CertState
  epoch : EpochNo

inductive EpochAction where
  | shelley (cert : Certificate) (keyDeposit : Coin) (certIndex : UInt16)
  | conway (cert : ConwayCert) (env : ConwayCertEnv)
  | boundary

def EpochAction.poolChange : EpochAction → PoolChange
  | shelley cert _ _ => cert.poolChange
  | conway cert _ => cert.poolChange
  | boundary => .keep

/-- Boundaries enter the epochs one by one. -/
inductive EpochStep : EpochCerts → EpochAction → EpochCerts → Prop
  | shelley {before : EpochCerts} {cert : Certificate} {keyDeposit : Coin} {certIndex : UInt16}
      {next : CertState} (accepted : applyCert before.cert cert keyDeposit certIndex = .ok next) :
      EpochStep before (.shelley cert keyDeposit certIndex) ⟨next, before.epoch⟩
  | conway {before : EpochCerts} {cert : ConwayCert} {env : ConwayCertEnv}
      {outcome : ConwayCertOutcome} (accepted : applyConwayCert before.cert cert env = .ok outcome) :
      EpochStep before (.conway cert env) ⟨outcome.state, before.epoch⟩
  | boundary {before : EpochCerts} {entered : EpochNo}
      (follows : entered.toNat = before.epoch.toNat + 1) :
      EpochStep before .boundary ⟨applyPoolReap before.cert entered, entered⟩

/-- A retirement is scheduled for an epoch that has not begun. -/
def EpochAction.Timely (action : EpochAction) (now : EpochNo) : Prop :=
  ∀ poolId epoch, action.poolChange = .retire poolId epoch → now < epoch

def TimelyStep (before : EpochCerts) (action : EpochAction) (after : EpochCerts) : Prop :=
  EpochStep before action after ∧ action.Timely before.epoch

/-- No scheduled retirement is overdue. -/
def EpochCerts.NoneOverdue (state : EpochCerts) : Prop :=
  ∀ (poolId : PoolId) (epoch : EpochNo),
    state.cert.pool.retiring[poolId]? = some epoch → state.epoch < epoch

end Ade.Ledger
