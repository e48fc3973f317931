import Ravl.Lib.Bytes
import Ravl.Lib.Search
import Ravl.Lib.Fallible
import Ravl.Lib.Cursor
import Ravl.Lib.JsonText
import Ravl.Lib.JsonPlaces
import Ravl.Lib.Transition
import Ravl.Util
import Ravl.HttpClient
import Ravl.Options
import Ravl.Attestation
import Ravl.OpenSsl
import Ravl.Crypto
import Ravl.Json
import Ravl.Sgx.PckExtension
import Ravl.Sgx.ExtensionFormat
import Ravl.Sgx.Quote
import Ravl.Sgx.QuoteFormat
import Ravl.Sgx.TcbJson
import Ravl.Sgx.SignedText
import Ravl.Sgx.TcbLevels
import Ravl.Sgx.QeLevels
import Ravl.Sgx.Collateral
import Ravl.Sgx.Requests
import Ravl.Sgx.Verify
import Ravl.Sgx.Soundness
import Ravl.SevSnp
import Ravl.SevSnp.Requests
import Ravl.Anchors
import Ravl.Freshness
import Ravl.Tracker.Model
import Ravl.Tracker.Request
import Ravl.Tracker.Soundness
import Ravl.Tracker.Results
import Ravl.Tracker.Finality
import Ravl.Tracker.Order
import Ravl.Tracker.Interleaving
import Ravl.Tracker.Erase
import Ravl.Tracker.Noninterference
import Ravl.Oe.CustomClaims
import Ravl.Oe.Attestation
import Ravl.Oe.CollateralFormat
import Ravl.Oe.Endorsements
import Ravl.Sgx.Compression
import Ravl.Oe.Compression
import Ravl.Compression
import Ravl.Oe.History
import Ravl.Http.Responses
import Ravl.Http.Synchronous
import Ravl.Http.Curl
import Ravl.Http.CurlReplies
import Ravl.Http.Fetch
import Ravl.Http.FetchReplies
import Ravl.Http.RequestSets
import Ravl.Http.CurlCompletion
import Ravl.Http.FetchCompletion
import Ravl.Http.RetryLaw
import Ravl.Http.Replies
import Ravl.Platforms
import Ravl.EntryPoints
import Ravl.Lib.Base64
import Ravl.Codec
import Ravl.CApi
import Ravl.Lib.Traced
import Ravl.QuoteAccess
import Ravl.Oe.EndorsementAccess
import Ravl.Oe.CustomClaimsAccess
import Ravl.SevSnp.ReportAccess
import Ravl.Sgx.MissingMembers
import Ravl.Sgx.ClaimedCollateral
import Ravl.ParsedSource
import Ravl.Lib.Numerals
import Ravl.UvmEndorsements
import Ravl.Http.Headers
import Ravl.Http.Attempts
import Ravl.Hex
import Ravl.UrlDecoding
import Ravl.PemTexts
import Ravl.CertificateLists
import Ravl.JsonSerializer
import Ravl.Sgx.ClaimsJson
import Ravl.SevSnp.ClaimsJson
import Ravl.Oe.ClaimsJson
import Ravl.ClaimsJson
import Ravl.VerifiedClaims
import Ravl.Uvm.Keys
import Ravl.Uvm.CoseHeader
import Ravl.Uvm.Verify
import Ravl.SevSnp.Soundness
import Ravl.Uvm.Soundness
import Ravl.Http.Asynchronous
import Ravl.Tracker.Outward
import Ravl.Tracker.WithClient
import Ravl.Tracker.Delivery
import Ravl.Tracker.Work
import Ravl.Http.Waiting
import Ravl.Tracker.Completion
import Ravl.Attested
import Ravl.Sgx.Locality
import Ravl.Locality
import Ravl.Relaxed
import Ravl.SevSnp.ReportFormat
