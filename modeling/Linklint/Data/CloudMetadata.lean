import Linklint.Js.Text

/-!
# Cloud metadata endpoints

The curated table of the addresses at which cloud vendors publish an endpoint.
-/

namespace Linklint

inductive CloudEndpointKind where
  | instanceMetadata | providerInternal
deriving DecidableEq

structure CloudMetadataEndpoint where
  address : Text
  provider : Text
  kind : Option CloudEndpointKind := none

def CLOUD_METADATA_ENDPOINTS : List CloudMetadataEndpoint :=
  [{ address := text "169.254.169.254",
     provider := text "AWS / Azure / GCP / DigitalOcean / OpenStack" },
   { address := text "fd00:ec2::254", provider := text "AWS (IPv6 IMDS)" },
   { address := text "192.0.0.192", provider := text "Oracle Cloud" },
   { address := text "100.100.100.200", provider := text "Alibaba Cloud" },
   { address := text "168.63.129.16", provider := text "Azure (WireServer host channel)",
     kind := some .providerInternal },
   { address := text "169.254.170.2", provider := text "AWS (ECS task credentials)" },
   { address := text "169.254.170.23", provider := text "AWS (EKS Pod Identity)" },
   { address := text "fd00:ec2::23", provider := text "AWS (EKS Pod Identity, IPv6)" },
   { address := text "169.254.0.23", provider := text "Tencent Cloud" },
   { address := text "fd20:ce::254", provider := text "GCP (IPv6-only instances)" }]

end Linklint
