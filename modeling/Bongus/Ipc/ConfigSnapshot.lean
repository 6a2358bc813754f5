import Bongus.Ipc.Instruction
import Bongus.Num.ExactDecimal

/-!
# Configuration snapshots

The snapshot a configuration command carries, as `execution_engine/src/ipc.rs` validates it against
`config_sync_schema_v3.json`, and the consensus state that holds the active one. A snapshot is
canonical JSON whose hash the command declares. It has only known keys, all keys that consensus
needs, and limits that are within the compiled ceilings.
-/

set_option autoImplicit false
set_option relaxedAutoImplicit false

namespace Bongus.Ipc

open Num Lib.Text

/-- The reasons a snapshot is refused for. The schema itself is compiled in, so it is neither
unavailable nor of another version. -/
inductive ConfigSyncValidationError where
  | missingConfigSnapshot
  | invalidConfigHash
  | configHashMismatch
  | malformedConfigSnapshot
  | nonCanonicalConfigSnapshot
  | unknownConfigKey
  | missingConsensusConfigKey
  | invalidPauseNewEntries
  | invalidRiskLimit
  | invalidStorageControl
  | invalidEmergencyExitBudget
  | riskLimitExceedsCompiledCeiling
  | inconsistentRiskLimits
deriving DecidableEq, Repr

def ConfigSyncValidationError.code : ConfigSyncValidationError → String
  | .missingConfigSnapshot => "missing_config_snapshot"
  | .invalidConfigHash => "invalid_config_hash"
  | .configHashMismatch => "config_hash_mismatch"
  | .malformedConfigSnapshot => "malformed_config_snapshot"
  | .nonCanonicalConfigSnapshot => "noncanonical_config_snapshot"
  | .unknownConfigKey => "unknown_config_key"
  | .missingConsensusConfigKey => "missing_consensus_config_key"
  | .invalidPauseNewEntries => "invalid_pause_new_entries"
  | .invalidRiskLimit => "invalid_risk_limit"
  | .invalidStorageControl => "invalid_storage_control"
  | .invalidEmergencyExitBudget => "invalid_emergency_exit_budget"
  | .riskLimitExceedsCompiledCeiling => "risk_limit_exceeds_compiled_ceiling"
  | .inconsistentRiskLimits => "inconsistent_risk_limits"

structure StorageControlUpdate where
  generation : ℕ
  emergencyLatched : Bool
  recoveryAcknowledged : Bool
deriving DecidableEq, Repr

structure ValidatedConfigSnapshot where
  configHash : String
  canonicalJson : String
  pauseNewEntries : Bool
  perSymbolNotionalCapUsd : String
  maxGrossExposureUsd : String
  emergencyExitMaxRetries : ℕ
  emergencyExitReadbackAttempts : ℕ
  emergencyExitMaxSlippageBps : String
  storageControl : Option StorageControlUpdate
deriving DecidableEq, Repr

/-! ### The schema -/

def allowedKeys : List String :=
  ["account_equity_usd", "adaptive_rules_paper_only", "adaptive_thresholds_enabled",
    "ai_report_agent_enabled", "allow_autonomous_inverse_liquidation", "allow_reverse_spot_entry",
    "autonomous_startup_recovery", "basis_deviation_stop", "cooldown_emergency_minutes",
    "cooldown_enabled", "cooldown_halted_minutes", "cooldown_partial_exit_minutes",
    "cooldown_symbol_minutes", "correlation_filter_min_observations",
    "correlation_filter_threshold", "daily_pnl_summary_hour_utc", "daily_pnl_summary_minute_utc",
    "data_retention_days", "decision_engine_stage", "default_cluster",
    "entry_ann_funding_threshold", "entry_premium_threshold",
    "execution_default_max_slippage_bps", "emergency_exit_max_retries",
    "emergency_exit_readback_attempts", "emergency_exit_max_slippage_bps",
    "execution_max_passive_offset_bps", "execution_min_maker_fill_probability",
    "execution_quality_target_slippage_bps", "execution_send_timeout_ms",
    "execution_slice_max_notional_usd", "exit_ann_funding_threshold", "exit_discount_threshold",
    "feature_retention_days", "health_alert_zscore", "health_monitor_enabled",
    "health_safe_mode_zscore", "health_sample_retention_days", "heartbeat_interval_seconds",
    "heartbeat_miss_threshold", "historical_var_confidence", "historical_var_min_observations",
    "historical_var_risk_budget_pct", "historical_var_window", "hwm_auto_decay_after_hours",
    "kill_recovery_request_id", "kill_recovery_requested_at", "kill_recovery_requested_by",
    "hwm_auto_decay_fraction", "loss_streak_entry_multiplier", "loss_streak_min_hold_hours",
    "loss_streak_notional_scale", "loss_streak_trigger", "live_approval_artifact_path",
    "live_approval_required", "maker_fill_probability", "market_sample_retention_days",
    "max_drawdown_pct", "max_drawdown_release_pct", "max_gross_exposure_usd", "max_leverage",
    "max_notional_per_trade", "max_runtime_staleness_seconds", "max_top_n",
    "max_venue_latency_ms", "min_expected_edge_bps", "min_incremental_portfolio_edge_bps",
    "min_top_n", "notional_per_trade", "operator_flatten_all_request_id",
    "operator_flatten_all_requested_at", "operator_flatten_all_requested_by", "pause_new_entries",
    "pending_intent_max_age_seconds", "per_cluster_notional_cap_usd",
    "per_symbol_notional_cap_usd", "portfolio_cluster_map", "ranker_weights",
    "ranker_winsorize_lower_pct", "ranker_winsorize_upper_pct", "ratcheting_age_minutes",
    "ratcheting_breakeven_bps", "ratcheting_enabled", "regime_filter_basis_abs_floor",
    "regime_filter_basis_widening_max", "regime_filter_basis_zscore_max",
    "regime_filter_depth_ratio_min", "regime_filter_enabled",
    "regime_filter_funding_dispersion_max", "regime_filter_min_samples",
    "regime_filter_price_shock_pct", "regime_filter_volume_spike_max",
    "reset_equity_high_watermark", "research_evidence_min_interval_seconds",
    "rotation_max_payback_days", "runtime_heartbeat_interval_seconds", "runtime_settling_seconds",
    "scanner_allowlist", "scanner_blocklist", "scanner_max_candidates",
    "scanner_max_data_stale_seconds", "scanner_max_spread_bps", "scanner_max_toxic_spread_bps",
    "scanner_min_book_depth_levels", "scanner_min_depth_multiplier", "scanner_min_depth_usd",
    "scanner_min_listing_age_days", "scanner_require_spot_and_perp", "sentiment_enabled",
    "shadow_exit_enabled", "shadow_exit_min_incremental_value_usd", "shadow_exit_model_path",
    "snapshot_retention_days", "snipe_ann_funding_threshold", "soft_drawdown_pct",
    "stale_intent_cooldown_base_seconds", "startup_recovery_acknowledge_symbols",
    "startup_recovery_auto_exit_manual_review", "storage_component_budgets_bytes",
    "storage_control_generation", "storage_critical_free_bytes", "storage_critical_free_fraction",
    "storage_critical_ttf_hours", "storage_degraded_free_bytes", "storage_degraded_free_fraction",
    "storage_degraded_ttf_hours", "storage_emergency_free_bytes",
    "storage_emergency_free_fraction", "storage_emergency_ttf_hours", "storage_emergency_latched",
    "storage_healthy_free_bytes", "storage_monitor_interval_seconds",
    "storage_recovery_healthy_samples", "storage_recovery_hysteresis_bytes",
    "storage_recovery_acknowledged", "storage_recovery_request_id",
    "storage_recovery_requested_at", "storage_recovery_requested_by", "storage_reserve_bytes",
    "storage_volume_budget_bytes", "storage_warning_free_bytes", "storage_warning_free_fraction",
    "storage_warning_ttf_hours", "stress_test_spot_crash_pct", "target_concurrent_positions",
    "trader_cycle_interval_seconds", "validation_adjust_notional_scale",
    "validation_adjust_sharpe_min", "validation_go_max_drawdown_pct",
    "validation_go_min_intervention_free_days", "validation_go_sharpe_min",
    "validation_no_go_max_drawdown_pct", "validation_snapshot_interval_minutes",
    "validation_target_cost_model_error_max_pct", "validation_target_monthly_return_max_pct",
    "validation_target_monthly_return_min_pct", "validation_target_uptime_min_pct",
    "validation_target_win_rate_min", "venue_latency_debounce_s",
    "venue_latency_smoothing_factor", "wf_max_drawdown_pct", "wf_min_avg_oos_edge",
    "wf_min_signal_to_noise", "wf_min_trades_per_window", "wf_min_utilization",
    "wf_min_windows_passing", "wf_promotion_enabled", "win_streak_reset"]

def requiredConsensusKeys : List String :=
  ["pause_new_entries", "per_symbol_notional_cap_usd", "max_gross_exposure_usd",
    "emergency_exit_max_retries", "emergency_exit_readback_attempts",
    "emergency_exit_max_slippage_bps"]

def compiledMaxPerSymbolNotionalUsd : ℕ := 2500

def compiledMaxGrossExposureUsd : ℕ := 10000

def defaultEmergencyExitMaxRetries : ℕ := 2

def defaultEmergencyExitReadbackAttempts : ℕ := 3

/-- The compiled slippage budget of fifty basis points. -/
def defaultEmergencyExitMaxSlippageBps : ExactDecimal := ⟨50, 0⟩

/-! ### Decimal texts of any size -/

/-- The digits of a positive decimal without leading zeros, and the place of its decimal point. -/
def normalizedPositiveDecimal (raw : String) : Option (List Char × ℤ) := do
  let text := raw.toList
  if text = [] ∨ text.head? = some '-' ∨ text.head? = some '+' then failure
  let (mantissa, exponent) ← match pieces (fun c ↦ c = 'e' || c = 'E') text with
    | [mantissa] => some (mantissa, 0)
    | [mantissa, exponent] =>
      (ExactDecimal.parseInteger 64 exponent).map fun value ↦ (mantissa, value)
    | _ => none
  if exponent.natAbs > 1000000 then failure
  let (integer, fraction) ← match pieces (· = '.') mantissa with
    | [integer] => some (integer, [])
    | [integer, fraction] => if fraction = [] then none else some (integer, fraction)
    | _ => none
  if integer = [] ∨ ¬ integer.all Char.isDigit ∨ ¬ fraction.all Char.isDigit then failure
  let allDigits := integer ++ fraction
  let digits := allDigits.dropWhile fun digit ↦ digit = '0'
  if digits = [] then failure
  let leadingZeroes : ℤ := (allDigits.length : ℤ) - digits.length
  return (digits, integer.length + exponent - leadingZeroes)

def comparePositiveDecimals (left right : String) : Option Ordering := do
  let (leftDigits, leftPosition) ← normalizedPositiveDecimal left
  let (rightDigits, rightPosition) ← normalizedPositiveDecimal right
  return (compare leftPosition rightPosition).then
    (ExactDecimal.compareDigits leftDigits rightDigits)

/-- Both texts are positive decimals and the first is at most the second. -/
def atMost (left right : String) : Bool :=
  match comparePositiveDecimals left right with
  | none => false
  | some order => order ≠ .gt

example : atMost "2500.0" "25e2" = true := by decide +kernel

/-! ### Validation -/

def Json.asBool : Json → Option Bool
  | .bool value => some value
  | _ => none

/-- The text of a number. -/
def Json.numberText : Json → Option String
  | .number text _ => some text
  | _ => none

def Json.asU64 : Json → Option ℕ
  | .number _ asU64 => asU64
  | _ => none

/-- Sixty-four lower-case hexadecimal digits. -/
def isHexDigest (text : String) : Bool :=
  text.utf8ByteSize = 64 &&
    text.toList.all fun c ↦ c.isDigit || ('a'.toNat ≤ c.toNat && c.toNat ≤ 'f'.toNat)

/-- A count between one and a compiled maximum. -/
def emergencyBudget (fields : List (String × Json)) (key : String) (maximum : ℕ) :
    Except ConfigSyncValidationError ℕ :=
  match (fields.lookup key).bind Json.asU64 with
  | none => .error .invalidEmergencyExitBudget
  | some value =>
    if 1 ≤ value ∧ value ≤ maximum then .ok value else .error .invalidEmergencyExitBudget

def emergencySlippage (fields : List (String × Json)) : Except ConfigSyncValidationError String :=
  match ((fields.lookup "emergency_exit_max_slippage_bps").bind Json.numberText).bind
      fun text ↦ (ExactDecimal.fromStr text).toOption with
  | none => .error .invalidEmergencyExitBudget
  | some value =>
    if value.cmp .zero ≠ .lt ∧ value.cmp defaultEmergencyExitMaxSlippageBps ≠ .gt then
      .ok value.display
    else .error .invalidEmergencyExitBudget

def storageControlKeys : List String :=
  ["storage_control_generation", "storage_emergency_latched", "storage_recovery_acknowledged"]

/-- The storage section is absent or complete. Setting and clearing the latch are complementary;
only the initial state, generation zero, has neither. -/
def storageControlOf (fields : List (String × Json)) :
    Except ConfigSyncValidationError (Option StorageControlUpdate) :=
  if ∀ key ∈ storageControlKeys, (fields.lookup key).isNone then .ok none
  else
    match (fields.lookup "storage_control_generation").bind Json.asU64,
        (fields.lookup "storage_emergency_latched").bind Json.asBool,
        (fields.lookup "storage_recovery_acknowledged").bind Json.asBool with
    | some generation, some latched, some acknowledged =>
      let isInitialClearState := generation = 0 ∧ latched = false ∧ acknowledged = false
      if ¬ isInitialClearState ∧ (generation = 0 ∨ latched = acknowledged) then
        .error .invalidStorageControl
      else .ok (some ⟨generation, latched, acknowledged⟩)
    | _, _, _ => .error .invalidStorageControl

/-- The limits of a snapshot: the cap of one symbol and the cap of the gross exposure. -/
def riskLimits (fields : List (String × Json)) :
    Except ConfigSyncValidationError (String × String) :=
  match (fields.lookup "per_symbol_notional_cap_usd").bind Json.numberText,
      (fields.lookup "max_gross_exposure_usd").bind Json.numberText with
  | some perSymbol, some maxGross =>
    if ¬ atMost perSymbol (toString compiledMaxPerSymbolNotionalUsd) ∨
        ¬ atMost maxGross (toString compiledMaxGrossExposureUsd) then
      .error .riskLimitExceedsCompiledCeiling
    else if ¬ atMost perSymbol maxGross then .error .inconsistentRiskLimits
    else .ok (perSymbol, maxGross)
  | _, _ => .error .invalidRiskLimit

variable (crates : Crates)

/-- The fields of a canonical document. -/
def configDocument (canonicalJson : String) :
    Except ConfigSyncValidationError (List (String × Json)) :=
  match crates.parseJson canonicalJson with
  | some (.object fields) =>
    if crates.jsonText (.object fields) ≠ canonicalJson then .error .nonCanonicalConfigSnapshot
    else .ok fields
  | _ => .error .malformedConfigSnapshot

/-- The snapshot of a document all of whose keys are known. -/
def snapshotOf (declaredHash canonicalJson : String) (fields : List (String × Json)) :
    Except ConfigSyncValidationError ValidatedConfigSnapshot :=
  match (fields.lookup "pause_new_entries").bind Json.asBool with
  | none => .error .invalidPauseNewEntries
  | some pauseNewEntries => do
    let limits ← riskLimits fields
    let retries ← emergencyBudget fields "emergency_exit_max_retries"
      defaultEmergencyExitMaxRetries
    let attempts ← emergencyBudget fields "emergency_exit_readback_attempts"
      defaultEmergencyExitReadbackAttempts
    let slippage ← emergencySlippage fields
    let storageControl ← storageControlOf fields
    return {
      configHash := declaredHash
      canonicalJson := canonicalJson
      pauseNewEntries := pauseNewEntries
      perSymbolNotionalCapUsd := limits.1
      maxGrossExposureUsd := limits.2
      emergencyExitMaxRetries := retries
      emergencyExitReadbackAttempts := attempts
      emergencyExitMaxSlippageBps := slippage
      storageControl := storageControl }

def AlphaInstruction.validateConfigSyncSnapshot (instruction : AlphaInstruction) :
    Except ConfigSyncValidationError ValidatedConfigSnapshot := do
  let canonicalJson := orEmpty instruction.configCanonicalJson
  if canonicalJson = "" then throw .missingConfigSnapshot
  let declaredHash := trimmed (orEmpty instruction.configVersionHash)
  if ¬ isHexDigest declaredHash then throw .invalidConfigHash
  if crates.sha256 canonicalJson ≠ declaredHash then throw .configHashMismatch
  let fields ← configDocument crates canonicalJson
  if ∃ field ∈ fields, field.1 ∉ allowedKeys then throw .unknownConfigKey
  if ∃ key ∈ requiredConsensusKeys, (fields.lookup key).isNone then
    throw .missingConsensusConfigKey
  snapshotOf declaredHash canonicalJson fields

/-! ### Consensus -/

/-- The active configuration. After a restart there is none. -/
structure ConfigConsensus where
  active : Option ValidatedConfigSnapshot := none
deriving DecidableEq, Repr

/-- The snapshot of a valid command becomes the active one. -/
def ConfigConsensus.apply (consensus : ConfigConsensus) (instruction : AlphaInstruction) :
    Except ConfigSyncValidationError ValidatedConfigSnapshot × ConfigConsensus :=
  match instruction.validateConfigSyncSnapshot crates with
  | .error error => (.error error, consensus)
  | .ok snapshot => (.ok snapshot, ⟨some snapshot⟩)

def ConfigConsensus.appliedHash (consensus : ConfigConsensus) : Option String :=
  consensus.active.map ValidatedConfigSnapshot.configHash

def ConfigConsensus.entryBlockReason (consensus : ConfigConsensus) (commandConfigHash : String) :
    Option String :=
  match consensus.active with
  | none => some "config_consensus_unavailable"
  | some active =>
    if active.configHash ≠ commandConfigHash then some "config_consensus_hash_mismatch"
    else if active.pauseNewEntries then some "config_pause_new_entries"
    else none

end Bongus.Ipc
