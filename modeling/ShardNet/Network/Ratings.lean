-- SUMMARY: How a network rates its validators and its peers.
import ShardNet.Json.Record

/-!
# Ratings

The parameters of the rating of validators, apart for the metachain and for the shards, and of the
honesty score of peers. Factors and scores arrive as numbers or as texts.
-/

namespace ShardNet

open Json (Codec)
open Number (Binary32 Binary64)

/-- The chance of selection up to a rating. -/
structure SelectionChance where
  chancePercent : UInt32
  maxThreshold : UInt32
  deriving DecidableEq, Repr

namespace SelectionChance

def record : Json.Record SelectionChance SelectionChance :=
  Json.Record.of SelectionChance.mk
    |>.required "erd_chance_percent" (·.chancePercent) Codec.uint32
    |>.required "erd_max_threshold" (·.maxThreshold) Codec.uint32

def codec : Codec SelectionChance := record.codec

end SelectionChance

structure RatingsConfig where
  generalMaxRating : UInt32
  generalMinRating : UInt32
  generalSignedBlocksThreshold : Binary32
  generalStartRating : UInt32
  generalSelectionChances : List SelectionChance
  metachainConsecutiveMissedBlocksPenalty : Binary32
  metachainHoursToMaxRatingFromStartRating : UInt32
  metachainProposerDecreaseFactor : Binary32
  metachainProposerValidatorImportance : Binary32
  metachainValidatorDecreaseFactor : Binary32
  peerHonestyBadPeerThreshold : Binary64
  peerHonestyDecayCoefficient : Binary64
  peerHonestyDecayUpdateIntervalInSeconds : UInt32
  peerHonestyMaxScore : Binary64
  peerHonestyMinScore : Binary64
  peerHonestyUnitValue : Binary64
  shardchainConsecutiveMissedBlocksPenalty : Binary32
  shardchainHoursToMaxRatingFromStartRating : UInt32
  shardchainProposerDecreaseFactor : Binary32
  shardchainProposerValidatorImportance : Binary32
  shardchainValidatorDecreaseFactor : Binary32
  deriving DecidableEq, Repr

namespace RatingsConfig

def record : Json.Record RatingsConfig RatingsConfig :=
  Json.Record.of RatingsConfig.mk
    |>.withDefault "erd_ratings_general_max_rating" (·.generalMaxRating) Codec.uint32 0
    |>.withDefault "erd_ratings_general_min_rating" (·.generalMinRating) Codec.uint32 0
    |>.withDefault "erd_ratings_general_signed_blocks_threshold"
      (·.generalSignedBlocksThreshold) Codec.binary32OrText ⟨0⟩
    |>.withDefault "erd_ratings_general_start_rating" (·.generalStartRating) Codec.uint32 0
    |>.withDefault "erd_ratings_general_selection_chances"
      (·.generalSelectionChances) (Codec.list SelectionChance.codec) []
    |>.withDefault "erd_ratings_metachain_consecutive_missed_blocks_penalty"
      (·.metachainConsecutiveMissedBlocksPenalty) Codec.binary32OrText ⟨0⟩
    |>.withDefault "erd_ratings_metachain_hours_to_max_rating_from_start_rating"
      (·.metachainHoursToMaxRatingFromStartRating) Codec.uint32 0
    |>.withDefault "erd_ratings_metachain_proposer_decrease_factor"
      (·.metachainProposerDecreaseFactor) Codec.binary32OrText ⟨0⟩
    |>.withDefault "erd_ratings_metachain_proposer_validator_importance"
      (·.metachainProposerValidatorImportance) Codec.binary32OrText ⟨0⟩
    |>.withDefault "erd_ratings_metachain_validator_decrease_factor"
      (·.metachainValidatorDecreaseFactor) Codec.binary32OrText ⟨0⟩
    |>.withDefault "erd_ratings_peerhonesty_bad_peer_threshold"
      (·.peerHonestyBadPeerThreshold) Codec.binary64OrText ⟨0⟩
    |>.withDefault "erd_ratings_peerhonesty_decay_coefficient"
      (·.peerHonestyDecayCoefficient) Codec.binary64OrText ⟨0⟩
    |>.withDefault "erd_ratings_peerhonesty_decay_update_interval_inseconds"
      (·.peerHonestyDecayUpdateIntervalInSeconds) Codec.uint32 0
    |>.withDefault "erd_ratings_peerhonesty_max_score"
      (·.peerHonestyMaxScore) Codec.binary64OrText ⟨0⟩
    |>.withDefault "erd_ratings_peerhonesty_min_score"
      (·.peerHonestyMinScore) Codec.binary64OrText ⟨0⟩
    |>.withDefault "erd_ratings_peerhonesty_unit_value"
      (·.peerHonestyUnitValue) Codec.binary64OrText ⟨0⟩
    |>.withDefault "erd_ratings_shardchain_consecutive_missed_blocks_penalty"
      (·.shardchainConsecutiveMissedBlocksPenalty) Codec.binary32OrText ⟨0⟩
    |>.withDefault "erd_ratings_shardchain_hours_to_max_rating_from_start_rating"
      (·.shardchainHoursToMaxRatingFromStartRating) Codec.uint32 0
    |>.withDefault "erd_ratings_shardchain_proposer_decrease_factor"
      (·.shardchainProposerDecreaseFactor) Codec.binary32OrText ⟨0⟩
    |>.withDefault "erd_ratings_shardchain_proposer_validator_importance"
      (·.shardchainProposerValidatorImportance) Codec.binary32OrText ⟨0⟩
    |>.withDefault "erd_ratings_shardchain_validator_decrease_factor"
      (·.shardchainValidatorDecreaseFactor) Codec.binary32OrText ⟨0⟩

def codec : Codec RatingsConfig := record.codec

end RatingsConfig

end ShardNet
