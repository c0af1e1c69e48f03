import Linklint.Js.Text

/-!
# The brand watchlist

The registrable domains of the brands, as the pinned data release lists them.
-/

namespace Linklint

/-- `BRAND_WATCHLIST.map(({ domain }) => domain)` -/
def BRAND_DOMAINS : List Text :=
  [text "paypal.com", text "stripe.com", text "venmo.com", text "wise.com", text "squareup.com",
    text "cash.app", text "coinbase.com", text "binance.com", text "kraken.com",
    text "blockchain.com", text "metamask.io", text "ledger.com", text "trezor.io",
    text "chase.com", text "wellsfargo.com", text "bankofamerica.com", text "citibank.com",
    text "capitalone.com", text "usbank.com", text "barclays.co.uk", text "hsbc.com",
    text "lloydsbank.com", text "natwest.com", text "santander.com", text "revolut.com",
    text "monzo.com", text "n26.com", text "americanexpress.com", text "mastercard.com",
    text "visa.com", text "westernunion.com", text "fidelity.com", text "schwab.com",
    text "vanguard.com", text "robinhood.com", text "intuit.com", text "turbotax.intuit.com",
    text "klarna.com", text "zellepay.com", text "google.com", text "youtube.com",
    text "apple.com", text "microsoft.com", text "live.com", text "amazon.com", text "meta.com",
    text "facebook.com", text "instagram.com", text "whatsapp.com", text "messenger.com",
    text "x.com", text "linkedin.com", text "tiktok.com", text "snapchat.com",
    text "pinterest.com", text "reddit.com", text "discord.com", text "telegram.org",
    text "netflix.com", text "spotify.com", text "disneyplus.com", text "hulu.com",
    text "twitch.tv", text "dropbox.com", text "box.com", text "adobe.com", text "docusign.com",
    text "salesforce.com", text "slack.com", text "zoom.us", text "github.com",
    text "gitlab.com", text "atlassian.com", text "oracle.com", text "ibm.com",
    text "cloudflare.com", text "godaddy.com", text "namecheap.com", text "wordpress.com",
    text "shopify.com", text "okta.com", text "yahoo.com", text "steampowered.com",
    text "epicgames.com", text "roblox.com", text "playstation.com", text "nintendo.com",
    text "openai.com", text "anthropic.com", text "huggingface.co", text "mistral.ai",
    text "cohere.com", text "ebay.com", text "walmart.com", text "target.com",
    text "bestbuy.com", text "costco.com", text "etsy.com", text "aliexpress.com",
    text "alibaba.com", text "booking.com", text "airbnb.com", text "expedia.com",
    text "uber.com", text "lyft.com", text "dhl.com", text "fedex.com", text "ups.com",
    text "usps.com", text "royalmail.com", text "dpd.com"]

/-- `isExactBrandDomain(domain)` -/
def isExactBrandDomain (domain : Text) : Bool := BRAND_DOMAINS.contains domain

/-- No brand of the list is written with a root dot. -/
theorem brand_no_root_dot {domain : Text} (h : isExactBrandDomain domain = true) :
    domain ≠ [] ∧ domain.getLast? ≠ some (unit '.') := by
  have all : ∀ brand ∈ BRAND_DOMAINS, brand ≠ [] ∧ brand.getLast? ≠ some (unit '.') := by
    decide +kernel
  exact all domain (List.contains_iff_mem.mp h)

end Linklint
