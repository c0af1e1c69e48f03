import Linklint.Transport.Request

/-!
# Content decoding

The decoder of a whole response body. The decompression itself is the platform's;
what comes out is held to the limit here.
-/

namespace Linklint

inductive ContentCoding where
  | gzip | deflate | br
deriving DecidableEq

/-- Why `zlib` gave no output. -/
inductive ZlibError where
  /-- `ERR_BUFFER_TOO_LARGE` -/
  | outputLimit
  | other
deriving DecidableEq

/-- `gunzipSync`, `inflateSync` and `brotliDecompressSync` with a `maxOutputLength`. -/
abbrev Zlib := ContentCoding → Bytes → Nat → Except ZlibError Bytes

inductive DecodeError where
  | decompressedLimit
  | unsupportedContentEncoding (encoding : Text)
  | contentDecompression
deriving DecidableEq

def contentCoding (encoding : Text) : Option ContentCoding :=
  if encoding = text "gzip" ∨ encoding = text "x-gzip" then some .gzip
  else if encoding = text "deflate" then some .deflate
  else if encoding = text "br" then some .br
  else none

section
variable (platform : Platform) (zlib : Zlib)

/-- The declared encodings, in the order they were applied. -/
def contentEncodings (headers : ResponseHeaders) : List Text :=
  let values := (headers.filter fun field =>
    platform.toLowerCase field.1 == text "content-encoding").flatMap Prod.snd
  let names := values.flatMap fun value => Text.split (unit ',') value
  (names.map fun name => platform.toLowerCase name.trim).filter (· ≠ [])

/-- The loop over the encodings, outermost first. -/
def decodeLayers (maxOutputBytes : Nat) : List Text → Bytes → Except DecodeError Bytes
  | [], body => if maxOutputBytes < body.length then .error .decompressedLimit else .ok body
  | encoding :: rest, body =>
      if encoding = text "identity" then decodeLayers maxOutputBytes rest body
      else
        match contentCoding encoding with
        | none => .error (.unsupportedContentEncoding encoding)
        | some coding =>
            match zlib coding body maxOutputBytes with
            | .error .outputLimit => .error .decompressedLimit
            | .error .other => .error .contentDecompression
            | .ok decoded =>
                if maxOutputBytes < decoded.length then .error .decompressedLimit
                else decodeLayers maxOutputBytes rest decoded

/-- A body of no bytes is decoded without its encodings being read. -/
def decodeResponseBody (encoded : Bytes) (headers : ResponseHeaders) (maxOutputBytes : Nat) :
    Except DecodeError Bytes :=
  if encoded.length = 0 then .ok []
  else if maxOutputBytes = 0 then .error .decompressedLimit
  else decodeLayers zlib maxOutputBytes (contentEncodings platform headers).reverse encoded

end

theorem decodeLayers_length_le {zlib : Zlib} {maxOutputBytes : Nat} {encodings : List Text}
    {encoded body : Bytes} (h : decodeLayers zlib maxOutputBytes encodings encoded = .ok body) :
    body.length ≤ maxOutputBytes := by
  induction encodings generalizing encoded with
  | nil =>
      unfold decodeLayers at h
      split at h
      · cases h
      · cases h
        omega
  | cons encoding rest ih =>
      unfold decodeLayers at h
      split at h
      · exact ih h
      · split at h
        · cases h
        · split at h
          · cases h
          · cases h
          · split at h
            · cases h
            · exact ih h

/-- What is decoded fits the limit it was decoded under. -/
theorem decodeResponseBody_length_le {platform : Platform} {zlib : Zlib} {encoded body : Bytes}
    {headers : ResponseHeaders} {maxOutputBytes : Nat}
    (h : decodeResponseBody platform zlib encoded headers maxOutputBytes = .ok body) :
    body.length ≤ maxOutputBytes := by
  unfold decodeResponseBody at h
  split at h
  · cases h
    exact Nat.zero_le _
  · split at h
    · cases h
    · exact decodeLayers_length_le h

end Linklint
