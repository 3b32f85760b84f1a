-- SUMMARY: A path tells which route it is the path of, at an observer up to the shard.
import ShardNet.Proofs.Text.Decimal
import ShardNet.Proofs.Text.Hex
import ShardNet.Proofs.Text.Split
import ShardNet.Route

/-!
# Paths of routes

A path is cut at its slashes. Its words, numbers and hashes have no slash of their own, so the
pieces are those that the path was put together from; only the text of an account may have slashes,
and it is all that is left of its path. `ofPieces?` finds the route in the pieces. A number stands
where no word can be, and a hash differs from the words in its place by a letter that is no
hexadecimal digit.
-/

namespace ShardNet

/-! ## Cutting at slashes -/

namespace Text

variable {pieces : List String} {piece path : String}

/-- What stands between the slashes of a path. -/
def cut (path : String) : List String := (path.toList.splitOn '/').map String.ofList

theorem cut_ne_nil : cut path ≠ [] := by simp [cut, List.splitOn_ne_nil]

theorem slash_notMem_of_mem_cut (hpiece : piece ∈ cut path) : '/' ∉ piece.toList := by
  obtain ⟨part, hpart, rfl⟩ := List.mem_map.1 hpiece
  rw [String.toList_ofList]
  exact notMem_of_mem_splitOn hpart

theorem map_ofList_map_toList (pieces : List String) :
    (pieces.map String.toList).map String.ofList = pieces := by
  simp [Function.comp_def]

theorem map_toList_map_ofList (parts : List (List Char)) :
    (parts.map String.ofList).map String.toList = parts := by
  simp [Function.comp_def]

theorem toList_join (pieces : List String) :
    ("/".intercalate pieces).toList = ['/'].intercalate (pieces.map String.toList) :=
  String.toList_intercalate

theorem join_cut (path : String) : "/".intercalate (cut path) = path := by
  rw [← String.toList_inj, toList_join, cut, map_toList_map_ofList, List.intercalate_splitOn]

theorem cut_join (hne : pieces ≠ []) (hfree : ∀ piece ∈ pieces, '/' ∉ piece.toList) :
    cut ("/".intercalate pieces) = pieces := by
  have hparts : ∀ part ∈ pieces.map String.toList, '/' ∉ part := by
    intro part hpart
    obtain ⟨piece, hpiece, rfl⟩ := List.mem_map.1 hpart
    exact hfree piece hpiece
  rw [cut, toList_join, List.splitOn_intercalate '/' hparts (by simpa using hne),
    map_ofList_map_toList]

end Text

namespace Route

variable {entity : Entity} {route other : Route} {hash : String}

/-! ## Pieces of a path -/

/-- The first pieces of the paths of stored bytes. -/
def internalPieces (entity : Entity) (shard : ShardId) : List String :=
  match entity with
  | .proxy => ["internal", Text.Decimal.text shard.toNat, "raw"]
  | .observer => ["internal", "raw"]

/-- The pieces that a path is put together from. -/
def pieces (entity : Entity) : Route → List String
  | networkConfig => ["network", "config"]
  | networkEconomics => ["network", "economics"]
  | ratingsConfig => ["network", "ratings"]
  | enableEpochs => ["network", "enable-epochs"]
  | genesisNodes => ["network", "genesis-nodes"]
  | networkStatus shard =>
    match entity with
    | .proxy => ["network", "status", Text.Decimal.text shard.toNat]
    | .observer => ["node", "status"]
  | account address => "address" :: Text.cut address
  | transactionCost => ["transaction", "cost"]
  | sendTransaction => ["transaction", "send"]
  | sendTransactions => ["transaction", "send-multiple"]
  | transactionStatus hash => ["transaction", hash, "status"]
  | transactionInfo hash withResults =>
      ["transaction", hash ++ if withResults then "?withResults=true" else ""]
  | hyperblockByNonce nonce => ["hyperblock", "by-nonce", Text.Decimal.text nonce.toNat]
  | hyperblockByHash hash => ["hyperblock", "by-hash", hash]
  | blockByHash shard hash => internalPieces entity shard ++ ["block", "by-hash", hash]
  | blockByNonce shard nonce => internalPieces entity shard ++ ["block", "by-nonce",
      Text.Decimal.text nonce.toNat]
  | miniblockByHash shard hash epoch =>
    internalPieces entity shard ++ ["miniblock", "by-hash", hash, "epoch",
      Text.Decimal.text epoch.toNat]
  | startOfEpochBlock epoch =>
    ["internal", "raw", "startofepoch", "metablock", "by-epoch", Text.Decimal.text epoch.toNat]
  | vmQuery => ["vm-values", "query"]

theorem path_eq_join (entity : Entity) (route : Route) :
    route.path entity = "/".intercalate (route.pieces entity) := by
  rw [← String.toList_inj]
  cases route with
  | account address =>
    show ("address/" ++ address).toList = ("/".intercalate ("address" :: Text.cut address)).toList
    rw [String.intercalate_cons_of_ne_nil Text.cut_ne_nil, Text.join_cut]
    rfl
  | networkStatus | transactionStatus | transactionInfo | hyperblockByNonce
      | hyperblockByHash | blockByHash
  | blockByNonce | miniblockByHash | startOfEpochBlock =>
    -- The words are compared letter by letter, and what stands between them is not looked at.
    cases entity
    all_goals
      unfold path internal pieces internalPieces
      simp only [String.toList_append, Text.toList_join, List.map_cons, List.map_nil,
        List.cons_append, List.nil_append, List.intercalate_cons_cons, List.intercalate_singleton,
        List.append_assoc]
      rfl
  | _ => rfl

/-! ## Numbers and hashes -/

/-- A text of lowercase hexadecimal digits. -/
def IsHex (text : String) : Prop := ∀ c ∈ text.toList, c ∈ "0123456789abcdef".toList

/-- The hashes in a route. -/
def hashes : Route → List String
  | transactionStatus hash | transactionInfo hash _ | hyperblockByHash hash | blockByHash _ hash
  | miniblockByHash _ hash _ => [hash]
  | _ => []

/-- All hashes in a route are in lowercase hexadecimal. -/
def HexHashes (route : Route) : Prop := ∀ hash ∈ route.hashes, IsHex hash

theorem isHex_text (bytes : Bytes) : IsHex (Text.Hex.text bytes) :=
  fun _ => Text.Hex.mem_of_mem_text

theorem IsHex.notMem {c : Char} (h : IsHex hash) (hother : c ∉ "0123456789abcdef".toList) :
    c ∉ hash.toList :=
  fun hc => hother (h c hc)

/-- A hash is no word with a letter that is not hexadecimal. -/
theorem IsHex.ne_word {word : String} (h : IsHex hash) (c : Char) (hc : c ∈ word.toList)
    (hother : c ∉ "0123456789abcdef".toList) : hash ≠ word := by
  rintro rfl
  exact h.notMem hother hc

theorem slash_notMem_text (value : Nat) : '/' ∉ (Text.Decimal.text value).toList := by
  rw [Text.Decimal.text, String.toList_ofList]
  exact fun hmem => absurd (Text.Decimal.isDigit_of_mem_digits hmem) (by decide)

theorem slash_notMem_pieces (h : route.HexHashes) :
    ∀ piece ∈ route.pieces entity, '/' ∉ piece.toList := by
  have hhash : ∀ hash ∈ route.hashes, '/' ∉ hash.toList :=
    fun hash hmem => (h hash hmem).notMem (by decide)
  cases route with
  | account address =>
      exact List.forall_mem_cons.2 ⟨by decide, fun piece => Text.slash_notMem_of_mem_cut⟩
  | transactionInfo hash withResults =>
    have hpiece : '/' ∉ (hash ++ if withResults then "?withResults=true" else "").toList := by
      rw [String.toList_append, List.mem_append, not_or]
      exact ⟨hhash hash List.mem_cons_self, by cases withResults <;> decide⟩
    exact List.forall_mem_cons.2 ⟨by decide, List.forall_mem_singleton.2 hpiece⟩
  | networkStatus | hyperblockByNonce | blockByNonce | startOfEpochBlock =>
    cases entity
    all_goals
      unfold pieces internalPieces
      simp only [List.cons_append, List.nil_append, List.forall_mem_cons, slash_notMem_text]
      decide
  | transactionStatus hash | hyperblockByHash hash | blockByHash _ hash | miniblockByHash _ hash =>
    have hslash : '/' ∉ hash.toList := hhash hash List.mem_cons_self
    cases entity
    all_goals
      unfold pieces internalPieces
      simp only [List.cons_append, List.nil_append, List.forall_mem_cons, slash_notMem_text, hslash]
      decide
  | _ => cases entity <;> decide

theorem cut_path (h : route.HexHashes) : Text.cut (route.path entity) = route.pieces entity := by
  have hne : route.pieces entity ≠ [] := by
    cases route with
    | networkStatus | blockByHash | blockByNonce | miniblockByHash =>
        cases entity <;> exact List.cons_ne_nil _ _
    | _ => exact List.cons_ne_nil _ _
  rw [path_eq_join, Text.cut_join hne (slash_notMem_pieces h)]

/-! ## The route of a path -/

/-- The number that a piece is the text of. -/
def number? (ω : Type) [Unsigned ω] (piece : String) : Option ω :=
  (Text.Decimal.readUnsigned ω piece.toList).toOption

/-- The route with a piece behind `transaction`: a word, or a hash and possibly a mark behind it. -/
def ofTransactionPiece (piece : String) : Route :=
  if piece = "cost" then transactionCost
  else if piece = "send" then sendTransaction
  else if piece = "send-multiple" then sendTransactions
  else transactionInfo (String.ofList (piece.toList.takeWhile (· ≠ '?')))
    (piece.toList.contains '?')

/-- The route with given pieces. A shard that is not among them is taken for zero. -/
def ofPieces? : List String → Option Route
  | ["network", "config"] => some networkConfig
  | ["network", "economics"] => some networkEconomics
  | ["network", "ratings"] => some ratingsConfig
  | ["network", "enable-epochs"] => some enableEpochs
  | ["network", "genesis-nodes"] => some genesisNodes
  | ["network", "status", shard] => (number? ShardId shard).map networkStatus
  | ["node", "status"] => some (networkStatus 0)
  | "address" :: rest => some (account ("/".intercalate rest))
  | ["transaction", piece] => some (ofTransactionPiece piece)
  | ["transaction", hash, "status"] => some (transactionStatus hash)
  | ["hyperblock", "by-nonce", nonce] => (number? UInt64 nonce).map hyperblockByNonce
  | ["hyperblock", "by-hash", hash] => some (hyperblockByHash hash)
  | ["internal", shard, "raw", "block", "by-hash", hash] =>
      (number? ShardId shard).map (blockByHash · hash)
  | ["internal", shard, "raw", "block", "by-nonce", nonce] =>
    (number? ShardId shard).bind fun shard => (number? UInt64 nonce).map (blockByNonce shard)
  | ["internal", shard, "raw", "miniblock", "by-hash", hash, "epoch", epoch] =>
    (number? ShardId shard).bind fun shard =>
      (number? UInt32 epoch).map (miniblockByHash shard hash)
  | ["internal", "raw", "block", "by-hash", hash] => some (blockByHash 0 hash)
  | ["internal", "raw", "block", "by-nonce", nonce] => (number? UInt64 nonce).map (blockByNonce 0)
  | ["internal", "raw", "miniblock", "by-hash", hash, "epoch", epoch] =>
    (number? UInt32 epoch).map (miniblockByHash 0 hash)
  | ["internal", _, "startofepoch", "metablock", "by-epoch", epoch] =>
      (number? UInt32 epoch).map startOfEpochBlock
  | ["vm-values", "query"] => some vmQuery
  | _ => none

/-- The same call for another shard. -/
def withShard (shard : ShardId) : Route → Route
  | networkStatus _ => networkStatus shard
  | blockByHash _ hash => blockByHash shard hash
  | blockByNonce _ nonce => blockByNonce shard nonce
  | miniblockByHash _ hash epoch => miniblockByHash shard hash epoch
  | route => route

/-- What of a route is in its path. -/
def told (entity : Entity) (route : Route) : Route :=
  match entity with
  | .proxy => route
  | .observer => route.withShard 0

theorem number?_text {ω : Type} [Unsigned ω] (number : ω) :
    number? ω (Text.Decimal.text (Unsigned.toNat number)) = some number := by
  rw [number?, Text.Decimal.text, String.toList_ofList, Text.Decimal.readUnsigned_digits]
  rfl

theorem takeWhile_hash (h : IsHex hash) (rest : List Char) :
    (hash.toList ++ rest).takeWhile (· ≠ '?') = hash.toList ++ rest.takeWhile (· ≠ '?') :=
  List.takeWhile_append_of_pos fun _ hc =>
    decide_eq_true (ne_of_mem_of_not_mem hc (h.notMem (by decide)))

theorem ofTransactionPiece_hash (h : IsHex hash) :
    ofTransactionPiece hash = transactionInfo hash false := by
  have hmark : '?' ∉ hash.toList := h.notMem (by decide)
  have hcost : hash ≠ "cost" := h.ne_word 'o' (by decide) (by decide)
  have hsend : hash ≠ "send" := h.ne_word 's' (by decide) (by decide)
  have hmultiple : hash ≠ "send-multiple" := h.ne_word 's' (by decide) (by decide)
  have htake : hash.toList.takeWhile (· ≠ '?') = hash.toList := by simpa using takeWhile_hash h []
  rw [ofTransactionPiece, if_neg hcost, if_neg hsend, if_neg hmultiple, htake, String.ofList_toList]
  simpa using hmark

theorem ofTransactionPiece_results (h : IsHex hash) :
    ofTransactionPiece (hash ++ "?withResults=true") = transactionInfo hash true := by
  have hlist :
      (hash ++ "?withResults=true").toList = hash.toList ++ '?' :: "withResults=true".toList :=
    String.toList_append
  have hmark : '?' ∈ (hash ++ "?withResults=true").toList := by simp [hlist]
  have hword : ∀ word : String, '?' ∉ word.toList → hash ++ "?withResults=true" ≠ word := by
    rintro word hword rfl
    exact hword hmark
  have htake : (hash ++ "?withResults=true").toList.takeWhile (· ≠ '?') = hash.toList := by
    rw [hlist, takeWhile_hash h]
    simp
  rw [ofTransactionPiece, if_neg (hword "cost" (by decide)), if_neg (hword "send" (by decide)),
    if_neg (hword "send-multiple" (by decide)), htake, String.ofList_toList]
  simp

/-- A route is found in its pieces. -/
theorem ofPieces?_pieces (entity : Entity) (h : route.HexHashes) :
    ofPieces? (route.pieces entity) = some (route.told entity) := by
  cases route with
  | account address =>
    have haccount := congrArg (fun text => some (account text)) (Text.join_cut address)
    cases entity <;> exact haccount
  | transactionInfo hash withResults =>
    have hhash := h hash List.mem_cons_self
    have hinfo : ofTransactionPiece (hash ++ if withResults then "?withResults=true" else "") =
        transactionInfo hash withResults := by
      cases withResults with
      | true => exact ofTransactionPiece_results hhash
      | false =>
          exact (congrArg ofTransactionPiece String.append_empty).trans
            (ofTransactionPiece_hash hhash)
    cases entity <;> exact congrArg some hinfo
  | networkStatus shard =>
    cases entity with
    | proxy => exact congrArg (Option.map networkStatus) (number?_text shard)
    | observer => rfl
  | hyperblockByNonce nonce =>
    have hnonce := congrArg (Option.map hyperblockByNonce) (number?_text nonce)
    cases entity <;> exact hnonce
  | blockByHash shard hash =>
    cases entity with
    | proxy => exact congrArg (Option.map (blockByHash · hash)) (number?_text shard)
    | observer => rfl
  | blockByNonce shard nonce =>
    have hnonce := fun shard => congrArg (Option.map (blockByNonce shard)) (number?_text nonce)
    cases entity with
    | proxy => exact (congrArg (Option.bind · _) (number?_text shard)).trans (hnonce shard)
    | observer => exact hnonce 0
  | miniblockByHash shard hash epoch =>
    have hepoch :=
      fun shard => congrArg (Option.map (miniblockByHash shard hash)) (number?_text epoch)
    cases entity with
    | proxy => exact (congrArg (Option.bind · _) (number?_text shard)).trans (hepoch shard)
    | observer => exact hepoch 0
  | startOfEpochBlock epoch =>
    have hepoch := congrArg (Option.map startOfEpochBlock) (number?_text epoch)
    cases entity <;> exact hepoch
  | _ => cases entity <;> rfl

theorem told_eq_of_path_eq (hroute : route.HexHashes) (hother : other.HexHashes)
    (hpath : route.path entity = other.path entity) : route.told entity = other.told entity := by
  have hpieces : route.pieces entity = other.pieces entity := by
    rw [← cut_path hroute, hpath, cut_path hother]
  have hfound := ofPieces?_pieces entity hroute
  rw [hpieces, ofPieces?_pieces entity hother, Option.some.injEq] at hfound
  exact hfound.symm

/-! ## The shard at an observer -/

theorem withShard_withShard (route : Route) (first second : ShardId) :
    (route.withShard first).withShard second = route.withShard second := by
  cases route <;> rfl

theorem exists_withShard (route : Route) : ∃ shard, route.withShard shard = route := by
  cases route with
  | networkStatus shard | blockByHash shard | blockByNonce shard | miniblockByHash shard =>
      exact ⟨shard, rfl⟩
  | _ => exact ⟨0, rfl⟩

theorem path_withShard (route : Route) (shard : ShardId) :
    (route.withShard shard).path .observer = route.path .observer := by
  cases route <;> rfl

theorem exists_withShard_of_told (h : route.told .observer = other.told .observer) :
    ∃ shard, other = route.withShard shard := by
  obtain ⟨shard, hshard⟩ := other.exists_withShard
  refine ⟨shard, ?_⟩
  calc
    other = (other.withShard 0).withShard shard := by rw [withShard_withShard, hshard]
    _ = (route.withShard 0).withShard shard := congrArg (withShard shard) h.symm
    _ = route.withShard shard := withShard_withShard route 0 shard

/-- With hashes in lowercase hexadecimal, two routes have the same path at a proxy only if they are
the same, and at an observer exactly if they are the same but for the shard of a status, a block or
a miniblock. -/
theorem path_eq_iff (route other : Route) (hroute : route.HexHashes) (hother : other.HexHashes) :
    (route.path .proxy = other.path .proxy ↔ route = other) ∧
    (route.path .observer = other.path .observer ↔ ∃ shard, other = route.withShard shard) := by
  refine ⟨⟨told_eq_of_path_eq hroute hother, congrArg (path .proxy)⟩, ⟨fun hpath => ?_, ?_⟩⟩
  · exact exists_withShard_of_told (told_eq_of_path_eq hroute hother hpath)
  · rintro ⟨shard, rfl⟩
    exact (path_withShard route shard).symm

/-- The same block of two shards has two paths at a proxy and one at an observer, which is not that
of a miniblock. -/
theorem path_eq_iff_block :
    (blockByHash 1 "c0ffee").path .proxy ≠ (blockByHash 2 "c0ffee").path .proxy ∧
    (blockByHash 1 "c0ffee").path .observer = (blockByHash 2 "c0ffee").path .observer ∧
    (blockByHash 1 "c0ffee").path .observer ≠ (miniblockByHash 1 "c0ffee" 4).path .observer := by
  have htext : Text.Hex.text [0xC0, 0xFF, 0xEE] = "c0ffee" := by decide
  have hhash : IsHex "c0ffee" := htext ▸ isHex_text [0xC0, 0xFF, 0xEE]
  have hblock : ∀ shard, (blockByHash shard "c0ffee").HexHashes :=
    fun _ => List.forall_mem_singleton.2 hhash
  have hminiblock : (miniblockByHash 1 "c0ffee" 4).HexHashes := List.forall_mem_singleton.2 hhash
  obtain ⟨hproxy, hobserver⟩ := path_eq_iff _ _ (hblock 1) (hblock 2)
  refine ⟨fun hsame => ?_, hobserver.2 ⟨2, rfl⟩, fun hsame => ?_⟩
  · cases hproxy.1 hsame
  · obtain ⟨shard, hshard⟩ := (path_eq_iff _ _ (hblock 1) hminiblock).2.1 hsame
    cases hshard

end Route

end ShardNet
